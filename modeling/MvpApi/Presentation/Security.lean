import MvpApi.Infrastructure.Config
import MvpApi.Presentation.Errors

/-!
# Bearer authentication

The API accepts access tokens of the user pool that were issued to one of its own clients. What
the library of tokens makes of a token is a parameter: it checks the signature, the issuer and
the time, and that no claim is missing.
-/

set_option autoImplicit false

namespace MvpApi

/-- The claims of a token; `sub` is `none` if it is not a text. -/
structure Claims where
  tokenUse : String
  clientId : String
  sub : Option String
deriving DecidableEq, Repr

/-- Why the library does not accept a token. -/
inductive JwtError where
  /-- The keys cannot be fetched. -/
  | connection
  | invalid
deriving DecidableEq, Repr

structure VerifiedToken where
  sub : String
  raw : String
deriving DecidableEq, Repr

def unauthorized (detail : String) : HttpException := ⟨401, detail, bearerChallenge⟩

def invalidToken : String := "Invalid or expired token"

/-- Check a token, given what the library makes of it. -/
def verifyToken (settings : Settings) (decode : String → Except JwtError Claims) (token : String) :
    Except HttpException VerifiedToken :=
  match decode token with
  | .error .connection => .error ⟨503, "Authentication keys unavailable, retry shortly", []⟩
  | .error .invalid => .error (unauthorized invalidToken)
  | .ok claims =>
      if claims.tokenUse ≠ "access" then .error (unauthorized "Not an access token")
      else if claims.clientId ∉ settings.cognitoClientIds then
        .error (unauthorized "Token was issued to another application")
      else match claims.sub with
        | none => .error (unauthorized "Invalid subject")
        | some sub =>
            if sub = "" then .error (unauthorized "Invalid subject") else .ok ⟨sub, token⟩

/-- A token that speaks for an account: an access token that was issued to a client of ours. -/
structure SpeaksFor (settings : Settings) (decode : String → Except JwtError Claims)
    (token sub : String) : Prop where
  claims : ∃ clientId ∈ settings.cognitoClientIds, decode token = .ok ⟨"access", clientId, some sub⟩
  named : sub ≠ ""

variable {settings : Settings} {decode : String → Except JwtError Claims} {token : String}

/-- The tokens that are accepted are those that speak for an account. -/
theorem verifyToken_eq_ok {verified : VerifiedToken} :
  verifyToken settings decode token = .ok verified
    ↔ SpeaksFor settings decode token verified.sub ∧ verified.raw = token
  := by
  unfold verifyToken
  constructor
  · intro h
    split at h
    · cases h
    · cases h
    · next claims hdecode =>
        split at h
        · cases h
        · next access =>
            split at h
            · cases h
            · next client =>
                split at h
                · cases h
                · next sub hsub =>
                    split at h
                    · cases h
                    · next named =>
                        cases h
                        refine ⟨⟨⟨claims.clientId, not_not.mp client, ?_⟩, named⟩, rfl⟩
                        rw [hdecode, ← not_not.mp access, ← hsub]
  · rintro ⟨⟨⟨clientId, client, hdecode⟩, named⟩, rfl⟩
    simp [hdecode, client, named]

/-- A token that is refused is answered with 401 and how to authenticate, unless the keys could
not be fetched. -/
theorem verifyToken_eq_error {exception : HttpException}
    (h : verifyToken settings decode token = .error exception) :
  (∃ detail, exception = unauthorized detail)
    ∨ decode token = .error .connection
      ∧ exception = ⟨503, "Authentication keys unavailable, retry shortly", []⟩
  := by
  unfold verifyToken at h
  split at h
  · next connection =>
      cases h
      exact Or.inr ⟨connection, rfl⟩
  · cases h
    exact Or.inl ⟨_, rfl⟩
  · split at h
    · cases h
      exact Or.inl ⟨_, rfl⟩
    · split at h
      · cases h
        exact Or.inl ⟨_, rfl⟩
      · split at h
        · cases h
          exact Or.inl ⟨_, rfl⟩
        · split at h
          · cases h
            exact Or.inl ⟨_, rfl⟩
          · cases h

end MvpApi
