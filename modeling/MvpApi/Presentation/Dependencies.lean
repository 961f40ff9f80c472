import MvpApi.Application.Uploads
import MvpApi.Database.Cursors
import MvpApi.Infrastructure.Images
import MvpApi.Presentation.Schemas
import MvpApi.Presentation.Security
import MvpApi.Runs.Calls

/-!
# What a request goes through

The wiring of the API: the use cases, built from the settings and the libraries, and the checks
that a request goes through before its route runs. The origin is verified first; then the token,
before anything touches the database; then the account is looked up, or created on its first
request; then the rate of the caller is limited, and access to the workspace is checked. The body
is validated last. Each check hands on what it has found out, or ends the request with an answer.
-/

set_option autoImplicit false

namespace MvpApi

open Program

/-! ### The wiring -/

/-- What the API is built from: the settings, and what libraries outside do. -/
structure Api where
  settings : Settings
  /-- `str.lower`. -/
  lower : String → String
  /-- `str.isalnum`. -/
  isalnum : String → Bool
  /-- How an address is normalized, if it is one. -/
  emailStr : String → Option String
  pillow : Pillow
  generatePresignedPost : PostPolicy → String × List (String × String)
  /-- What cursors are written and read with. -/
  python : Conversions
  /-- A bound on the batches of a purge. -/
  rounds : ℕ

namespace Api

variable (api : Api)

def storage : S3MediaStorage where
  baseUrl := rstripSlash api.settings.mediaBaseUrl
  maxBytes := api.settings.mediaMaxUploadBytes
  isalnum := api.isalnum
  renderImage := api.pillow.renderImage api.settings.mediaThumbnailSize
  renderSquare := api.pillow.renderSquare

def signer : PostSigner := ⟨api.settings.mediaBucket, api.generatePresignedPost⟩

def quotas : ProductQuotas :=
  ⟨api.settings.maxProductsPerWorkspace, api.settings.maxStorageBytesPerWorkspace⟩

def services : Services BucketRequest where
  media := api.storage.media
  quotas := api.quotas
  webBaseUrl := api.settings.webBaseUrl
  lower := api.lower
  rounds := api.rounds

def codec : CursorCodec := cursors api.python

def urlFor : String → String := api.storage.media.urlFor

end Api

/-- An API to try requests with. -/
def Api.sample : Api where
  settings := .sample
  lower := Env.sample.lower
  isalnum s := s.toList.all fun c => c.isAlphanum
  emailStr email := some email
  pillow := .sample
  generatePresignedPost policy := (policy.bucket, [])
  python := .sample
  rounds := 1

/-! ### Requests -/

/-- A request, apart from its route: the headers in the order in which they were sent, and what
the libraries outside answer while it is served. -/
structure Incoming where
  path : String
  headers : List (String × String)
  /-- The credentials of the `Authorization` header, if its scheme is `Bearer`. -/
  credentials : Option String
  /-- The address of whoever has connected. -/
  client : Option String
  /-- What the library makes of a token. -/
  decode : String → Except JwtError Claims
  /-- How the table of the rate limiter answers a hit. -/
  hit : String → Except Failure (Option ℕ)

/-- A request that has come by the network, with a token that names its subject. -/
def Incoming.sample : Incoming where
  path := "/"
  headers := [("x-origin-verify", "secret"), ("x-viewer-ip", "192.0.2.1")]
  credentials := some "ada"
  client := none
  decode token := .ok ⟨"access", "web", some token⟩
  hit _ := .ok none

structure CurrentUser where
  id : String
  email : String
deriving DecidableEq, Repr

structure CurrentWorkspace where
  id : String
  slug : String
deriving DecidableEq, Repr

def originHeader : String := "x-origin-verify"
def unguardedPaths : List String := ["/health"]

/-- What was sent in the header of the origin; of many such headers the last one counts. -/
def Incoming.origin (incoming : Incoming) : String :=
  (incoming.headers.reverse.lookup originHeader).getD ""

/-- The address of the viewer, which the network sets in a header. -/
def Incoming.clientAddress (incoming : Incoming) : String :=
  ((incoming.headers.lookup "x-viewer-ip").filter (· ≠ "")).getD (incoming.client.getD "-")

def Incoming.verifiedToken (incoming : Incoming) (settings : Settings) :
    Except HttpException VerifiedToken :=
  match incoming.credentials with
  | none => .error (unauthorized "Missing Authorization header: Bearer <token>")
  | some credentials => verifyToken settings incoming.decode credentials

/-! ### Checks -/

namespace Route

variable {μ : Type → Type} {α β : Type}

/-- Go on with what a check has found out. -/
def gated (check : Except HttpException α) (next : α → Service μ (Response β)) :
    Service μ (Response β) :=
  match check with
  | .ok a => next a
  | .error exception => return exception.response

/-- Go on with a valid body. -/
def validated (body : Option α) (next : α → Service μ (Response β)) : Service μ (Response β) :=
  match body with
  | some a => next a
  | none => return .unprocessable

/-- Refuse a request that has not come by the network that adds the secret, if there is one. -/
def verifyOrigin (guard : Option String) (incoming : Incoming) (next : Service μ (Response β)) :
    Service μ (Response β) :=
  match guard with
  | none => next
  | some secret =>
      if incoming.path ∉ unguardedPaths ∧ incoming.origin ≠ secret then
        return ⟨403, [], .error (.text "Forbidden")⟩
      else next

/-- Go on as the account of the token, which is created on its first request. -/
def authenticated (settings : Settings) (incoming : Incoming)
    (next : CurrentUser → Service μ (Response β)) : Service μ (Response β) :=
  gated (incoming.verifiedToken settings) fun token => do
    match ← (AccountService.ensureAccount token.sub token.raw).outcome with
    | .ok email => next ⟨token.sub, email⟩
    | .error (.accountLookup _) => return (unauthorized "Account not found").response
    | .error e => .fail e

/-- Go on if the rate of a caller is within its limit. -/
def limited (incoming : Incoming) (bucket identity : String) (next : Service μ (Response β)) :
    Service μ (Response β) :=
  gated (rateLimit incoming.hit bucket identity) fun _ => next

/-- Go on if the rate of a caller is within its limit, where there is one. -/
def limitedIn (incoming : Incoming) (bucket : Option String) (identity : String)
    (next : Service μ (Response β)) : Service μ (Response β) :=
  match bucket with
  | some bucket => limited incoming bucket identity next
  | none => next

/-- Go on in the workspace at a slug if the caller belongs to it, and may perform the action
there when one is given. -/
def workspaceAccess (action : Option String) (slug : String) (user : CurrentUser)
    (next : CurrentWorkspace → Service μ (Response β)) : Service μ (Response β) := do
  let workspace ← read (AccessService.workspace user.id slug action)
  next ⟨workspace.id, workspace.slug⟩

/-- Answer the error that a route ends with. -/
def handled (x : Service μ (Response β)) : Service μ (Response β) := do
  match ← x.outcome with
  | .ok response => return response
  | .error e => return e.response

end Route

end MvpApi
