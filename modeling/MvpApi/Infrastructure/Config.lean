import MvpApi.Domain.Platform

/-!
# Configuration

The settings of the program, and what it builds from them: the engine of the database, the
clients of the services, the keys that tokens are checked with, the mailer, the publisher of
events and the guard of the origin. Each of these decides on its own whether the program runs
in local mode; `Settings.checkMode` is what keeps their decisions together.
-/

set_option autoImplicit false

namespace MvpApi

/-! ### Texts -/

/-- The text without the slashes at its end. -/
def rstripSlash (s : String) : String :=
  String.ofList (s.toList.reverse.dropWhile (· = '/')).reverse

/-! ### Settings -/

/-- The settings, as they come from the environment. -/
structure Settings where
  environment : String := "prod"
  awsRegion : String
  dsqlEndpoint : String := ""
  databaseUrl : String := ""
  awsEndpointUrl : String := ""
  cognitoUserPoolId : String
  cognitoClientIds : List String
  originVerifySecret : String
  webBaseUrl : String
  mediaBucket : String
  mediaBaseUrl : String
  mediaMaxUploadBytes : ℕ := 5 * 1024 * 1024
  mediaThumbnailSize : ℕ := 512
  appsyncHttpDomain : String
  mailFrom : String
  rateLimitTable : String
  rateLimitMaxRequests : ℕ := 60
  rateLimitWindowSeconds : ℕ := 60
  maxProductsPerWorkspace : ℕ := 10000
  maxStorageBytesPerWorkspace : ℕ := 10 * 1024 ^ 3
deriving DecidableEq, Repr

namespace Settings

variable (settings : Settings)

def isLocal : Bool := settings.environment = "local"

/-- Refuse settings of which some are for local mode and some are not; `lambda` is the name of
the function that the program runs as, if it runs on Lambda. -/
def checkMode (lambda : Option String) : Except String Unit :=
  if settings.isLocal then
    if ¬ (settings.databaseUrl ≠ "" ∧ settings.awsEndpointUrl ≠ "") then
      .error "Local mode needs DATABASE_URL and AWS_ENDPOINT_URL"
    else if (lambda.filter (· ≠ "")).isSome then
      .error "Local mode refuses to run on Lambda"
    else .ok ()
  else if settings.databaseUrl ≠ "" ∨ settings.awsEndpointUrl ≠ "" then
    .error "DATABASE_URL and AWS_ENDPOINT_URL are for local mode only"
  else if settings.dsqlEndpoint = "" then .error "DSQL_ENDPOINT is required"
  else .ok ()

def cognitoIssuer : String :=
  "https://cognito-idp." ++ settings.awsRegion ++ ".amazonaws.com/" ++ settings.cognitoUserPoolId

/-- Where the keys are that tokens are signed with. -/
def cognitoJwksUrl : String :=
  if settings.awsEndpointUrl ≠ "" then
    rstripSlash settings.awsEndpointUrl ++ "/" ++ settings.cognitoUserPoolId
      ++ "/.well-known/jwks.json"
  else settings.cognitoIssuer ++ "/.well-known/jwks.json"

end Settings

/-- Settings to try the program with, as they are in the cloud. -/
def Settings.sample : Settings where
  awsRegion := "eu-west-1"
  dsqlEndpoint := "cluster.dsql.test"
  cognitoUserPoolId := "pool"
  cognitoClientIds := ["web"]
  originVerifySecret := "secret"
  webBaseUrl := "https://app.test"
  mediaBucket := "media"
  mediaBaseUrl := "https://media.test/"
  appsyncHttpDomain := "events.test"
  mailFrom := "noreply@app.test"
  rateLimitTable := "limits"

/-! ### What is built from the settings -/

/-- The engine of the database. -/
inductive Engine where
  | postgres (url : String)
  | dsql (endpoint region : String)
deriving DecidableEq, Repr

/-- Where the client of the bucket finds it, and how it names it. -/
structure BucketClient where
  endpoint : String
  addressing : String
deriving DecidableEq, Repr

/-- Who sends the mails. -/
inductive MailerKind where
  | log
  | ses (sender : String)
deriving DecidableEq, Repr

/-- Who publishes the events. -/
inductive PublisherKind where
  | log
  | appSync (httpDomain region : String)
deriving DecidableEq, Repr

namespace Settings

variable (settings : Settings)

def engineFor : Engine :=
  if settings.databaseUrl ≠ "" then .postgres settings.databaseUrl
  else .dsql settings.dsqlEndpoint settings.awsRegion

/-- The endpoint of the clients of the services, where it is not that of the cloud. -/
def endpoint : Option String := some settings.awsEndpointUrl |>.filter (· ≠ "")

def s3 : BucketClient :=
  match settings.endpoint with
  | some endpoint => ⟨endpoint, "path"⟩
  | none => ⟨"https://s3." ++ settings.awsRegion ++ ".amazonaws.com", "virtual"⟩

def mailer : MailerKind :=
  if settings.isLocal then .log else .ses settings.mailFrom

def events : PublisherKind :=
  if settings.isLocal then .log else .appSync settings.appsyncHttpDomain settings.awsRegion

/-- The secret that the origin is verified with, if it is. -/
def originGuard : Option String :=
  if settings.isLocal then none else some settings.originVerifySecret

/-- How many connections to the database are kept: the default of the driver, or these. -/
def poolSize : Option (ℕ × ℕ) :=
  if settings.isLocal then none else some (1, 2)

/-! ### Modes -/

/-- Everything that is built from the settings is for local mode. -/
structure BuiltLocally : Prop where
  engine : settings.engineFor = .postgres settings.databaseUrl
  endpoint : settings.endpoint = some settings.awsEndpointUrl
  s3 : settings.s3 = ⟨settings.awsEndpointUrl, "path"⟩
  keys : settings.cognitoJwksUrl = rstripSlash settings.awsEndpointUrl ++ "/"
    ++ settings.cognitoUserPoolId ++ "/.well-known/jwks.json"
  mailer : settings.mailer = .log
  events : settings.events = .log
  guard : settings.originGuard = none
  pool : settings.poolSize = none

/-- Everything that is built from the settings is for the cloud. -/
structure BuiltForCloud : Prop where
  engine : settings.engineFor = .dsql settings.dsqlEndpoint settings.awsRegion
  named : settings.dsqlEndpoint ≠ ""
  endpoint : settings.endpoint = none
  s3 : settings.s3 = ⟨"https://s3." ++ settings.awsRegion ++ ".amazonaws.com", "virtual"⟩
  keys : settings.cognitoJwksUrl = settings.cognitoIssuer ++ "/.well-known/jwks.json"
  mailer : settings.mailer = .ses settings.mailFrom
  events : settings.events = .appSync settings.appsyncHttpDomain settings.awsRegion
  guard : settings.originGuard = some settings.originVerifySecret
  pool : settings.poolSize = some (1, 2)

variable {settings}

/-- There is an endpoint where one is set. -/
theorem endpoint_eq_some (endpoint : settings.awsEndpointUrl ≠ "") :
  settings.endpoint = some settings.awsEndpointUrl
  := by simp [Settings.endpoint, endpoint]

theorem endpoint_eq_none (endpoint : settings.awsEndpointUrl = "") :
  settings.endpoint = none
  := by simp [Settings.endpoint, endpoint]

theorem builtLocally (isLocal : settings.isLocal = true) (url : settings.databaseUrl ≠ "")
    (endpoint : settings.awsEndpointUrl ≠ "") :
  settings.BuiltLocally
  where
  engine := if_pos url
  endpoint := endpoint_eq_some endpoint
  s3 := by rw [Settings.s3, endpoint_eq_some endpoint]
  keys := if_pos endpoint
  mailer := if_pos isLocal
  events := if_pos isLocal
  guard := if_pos isLocal
  pool := if_pos isLocal

theorem builtForCloud (cloud : settings.isLocal = false) (url : settings.databaseUrl = "")
    (endpoint : settings.awsEndpointUrl = "") (named : settings.dsqlEndpoint ≠ "") :
  settings.BuiltForCloud
  where
  engine := if_neg (not_not.mpr url)
  named := named
  endpoint := endpoint_eq_none endpoint
  s3 := by rw [Settings.s3, endpoint_eq_none endpoint]
  keys := if_neg (not_not.mpr endpoint)
  mailer := if_neg (by simp [cloud])
  events := if_neg (by simp [cloud])
  guard := if_neg (by simp [cloud])
  pool := if_neg (by simp [cloud])

/-- Settings are accepted exactly if all that is built from them is for the same mode, with a
database that is named in the cloud, and the program does not run on Lambda in local mode. -/
theorem checkMode_eq_ok {lambda : Option String} :
  settings.checkMode lambda = .ok ()
    ↔ settings.BuiltLocally ∧ (lambda = none ∨ lambda = some "") ∨ settings.BuiltForCloud
  := by
  have onLambda : (lambda.filter (· ≠ "")).isSome = false ↔ lambda = none ∨ lambda = some "" := by
    cases lambda with
    | none => simp
    | some name => simp [Option.filter_some]
  constructor
  · intro accepted
    unfold checkMode at accepted
    split at accepted
    · next isLocal =>
        split at accepted
        · cases accepted
        · next urls =>
            obtain ⟨url, endpoint⟩ := not_not.mp urls
            split at accepted
            · cases accepted
            · next elsewhere =>
                exact Or.inl ⟨builtLocally isLocal url endpoint,
                  onLambda.mp (Bool.not_eq_true _ ▸ elsewhere)⟩
    · next cloud =>
        split at accepted
        · cases accepted
        · next none =>
            obtain ⟨url, endpoint⟩ := not_or.mp none
            split at accepted
            · cases accepted
            · next named =>
                exact Or.inr (builtForCloud (Bool.not_eq_true _ ▸ cloud) (not_not.mp url)
                  (not_not.mp endpoint) named)
  · rintro (⟨built, elsewhere⟩ | built)
    · have isLocal : settings.isLocal = true := by
        by_contra cloud
        have mailer := built.mailer
        rw [Settings.mailer, if_neg cloud] at mailer
        cases mailer
      have url : settings.databaseUrl ≠ "" := by
        intro none
        have engine := built.engine
        rw [engineFor, if_neg (not_not.mpr none)] at engine
        cases engine
      have endpoint : settings.awsEndpointUrl ≠ "" := by
        intro none
        have endpoint := built.endpoint
        rw [endpoint_eq_none none] at endpoint
        cases endpoint
      unfold checkMode
      rw [if_pos isLocal, if_neg (not_not.mpr ⟨url, endpoint⟩), onLambda.mpr elsewhere]
      rfl
    · have cloud : ¬ settings.isLocal = true := by
        intro isLocal
        have mailer := built.mailer
        rw [Settings.mailer, if_pos isLocal] at mailer
        cases mailer
      have url : settings.databaseUrl = "" := by
        by_contra some
        have engine := built.engine
        rw [engineFor, if_pos some] at engine
        cases engine
      have endpoint : settings.awsEndpointUrl = "" := by
        by_contra some
        have endpoint := built.endpoint
        rw [endpoint_eq_some some] at endpoint
        cases endpoint
      unfold checkMode
      rw [if_neg cloud, if_neg (not_or.mpr ⟨not_not.mpr url, not_not.mpr endpoint⟩),
        if_neg built.named]

end Settings

end MvpApi
