import MvpApi.Presentation.Routes
import MvpApi.Runs.Answers

/-!
# The routes answer what their schema documents

However its requests are answered, a route ends with an answer: the success that it declares, or
an error. The errors are those that its schema documents, apart from a few that every route can
answer and no schema mentions: a lost race, an internal error, a request that did not come by the
network, and, where an account is needed, the keys of the tokens that cannot be fetched and an
email that another account holds.
-/

set_option autoImplicit false

namespace MvpApi

open Program

variable {env : Env} {api : Api} {incoming : Incoming} {route : Route}

/-! ### Answers -/

/-- What the headers and the detail of an error have to be for its status. -/
structure Response.Proper (status : ℕ) (headers : List (String × String)) (detail : Detail) :
    Prop where
  challenge : status = 401 → headers = bearerChallenge
  retryAfter : status = 429 → ∃ seconds : ℕ, headers = [("Retry-After", toString seconds)]
  onboarding : ∀ step, detail = .onboardingIncomplete step → status = 403

/-- What a route may answer. -/
inductive Route.Answer (api : Api) (incoming : Incoming) (route : Route) : Response Reply → Prop
  | success {body : Reply} (declared : body.model = route.responseModel) :
      Answer api incoming route ⟨route.statusCode, route.headers, .ok body⟩
  | documented {status : ℕ} {headers : List (String × String)} {detail : Detail}
      (documented : status ∈ route.errorResponses)
      (proper : Response.Proper status headers detail) :
      Answer api incoming route ⟨status, headers, .error detail⟩
  | lostRace : Answer api incoming route .concurrencyConflict
  | unhandled : Answer api incoming route .unhandled
  | origin {secret : String} (guard : api.settings.originGuard = some secret)
      (guarded : incoming.path ∉ unguardedPaths) (other : incoming.origin ≠ secret) :
      Answer api incoming route ⟨403, [], .error (.text "Forbidden")⟩
  | keys {token : String} (needsAccount : route.needsAccount)
      (sent : incoming.credentials = some token)
      (unavailable : incoming.decode token = .error .connection) :
      Answer api incoming route
        ⟨503, [], .error (.text "Authentication keys unavailable, retry shortly")⟩
  | emailHeld (needsAccount : route.needsAccount) :
      Answer api incoming route (DomainError.conflict emailHeldByAnotherAccount).response

/-- The answer to a `DomainError` is a proper one. -/
theorem DomainError.proper (error : DomainError) :
  Response.Proper (statusFor error) (if statusFor error = 401 then bearerChallenge else [])
    error.detail
  := by
  rw [statusFor_eq]
  constructor
  · intro h
    rw [if_pos h]
  · intro h
    cases error with
    | _ => simp at h
  · intro step h
    cases error with
    | onboardingIncomplete status => rfl
    | _ => cases h

/-- The answer to a failure that a route documents. -/
theorem Failure.answer {e : Failure} (h : e.Within route.errorResponses) :
  route.Answer api incoming e.response
  := by
  cases e with
  | domain error => exact .documented (h error rfl) error.proper
  | concurrencyConflict => exact .lostRace
  | _ => exact .unhandled

/-! ### Handlers -/

/-- However its requests are answered, the handler ends with an answer that is `good`, or fails
with an error of which the answer is. -/
def Handler.Answers (env : Env) (x : Handler) (good : Response Reply → Prop) : Prop :=
  Leads (answering BucketRequest env) x () fun y _ =>
    match y with
    | .ok response => good response
    | .error e => good e.response

namespace Handler.Answers

variable {good : Response Reply → Prop} {x : Handler}

/-- A handler that fails with documented errors only. -/
theorem of_meets (h : Service.Meets env x (route.Answer api incoming) route.errorResponses) :
  Handler.Answers env x (route.Answer api incoming)
  := by
  refine Always.mono h fun y _ hy => ?_
  cases y with
  | ok response => exact hy
  | error e => exact Failure.answer hy

theorem gated {α : Type} {check : Except HttpException α} {next : α → Handler}
    (refused : ∀ exception, check = .error exception → good exception.response)
    (passed : ∀ a, check = .ok a → Handler.Answers env (next a) good) :
  Handler.Answers env (Route.gated check next) good
  := by
  unfold Route.gated
  cases check with
  | ok a => exact passed a rfl
  | error exception => exact refused exception rfl

theorem limited {bucket identity : String} {next : Handler}
    (documented : 429 ∈ route.errorResponses)
    (passed : Handler.Answers env next (route.Answer api incoming)) :
  Handler.Answers env (Route.limited incoming bucket identity next) (route.Answer api incoming)
  := by
  refine gated (fun exception he => ?_) fun _ _ => passed
  obtain ⟨seconds, _, rfl⟩ := rateLimit_eq_error.mp he
  exact .documented documented ⟨nofun, fun _ => ⟨seconds, rfl⟩, nofun⟩

/-- A handler behind the check of the token and of the account. -/
theorem authenticated {next : CurrentUser → Handler} (needsAccount : route.needsAccount)
    (documented : 401 ∈ route.errorResponses)
    (passed : ∀ user, Handler.Answers env (next user) (route.Answer api incoming)) :
  Handler.Answers env (Route.authenticated api.settings incoming next) (route.Answer api incoming)
  := by
  have unauthorized (detail : String) :
      route.Answer api incoming (unauthorized detail).response :=
    .documented documented ⟨fun _ => rfl, by simp [MvpApi.unauthorized], nofun⟩
  refine gated (fun exception he => ?_) fun token _ => ?_
  · unfold Incoming.verifiedToken at he
    split at he
    · cases he
      exact unauthorized _
    · next token sent =>
        obtain ⟨detail, rfl⟩ | ⟨unavailable, rfl⟩ := verifyToken_eq_error he
        · exact unauthorized detail
        · exact .keys needsAccount sent unavailable
  · refine Always.outcome_bind (AccountService.leads_ensureAccount token.sub token.raw)
      fun y _ hy => ?_
    cases y with
    | ok email => exact passed ⟨token.sub, email⟩
    | error e =>
        cases e with
        | accountLookup message => exact unauthorized _
        | domain error =>
            obtain rfl := hy error rfl
            exact Route.Answer.emailHeld needsAccount
        | concurrencyConflict => exact Route.Answer.lostRace
        | _ => exact Route.Answer.unhandled

/-- The answer of a request that is served. -/
theorem handled (h : Handler.Answers env x good) :
  Leads (answering BucketRequest env) (Route.handled x) () fun y _ =>
    ∃ response, y = .ok response ∧ good response
  := by
  refine Always.outcome_bind h fun y _ hy => ?_
  cases y with
  | ok response => exact ⟨response, rfl, hy⟩
  | error e => exact ⟨e.response, rfl, hy⟩

end Handler.Answers

/-- A valid query is handed on as it is. -/
theorem ListQuery.validate_eq_some {query query' : ListQuery} (h : query.validate = some query') :
  query' = query
  := by
  unfold validate at h
  split at h
  · cases h
    rfl
  · cases h

namespace Service.Meets

variable {α : Type} {statuses : List ℕ} {good : Response Reply → Prop}

theorem validated {body : Option α} {next : α → Handler} (unprocessable : good .unprocessable)
    (valid : ∀ a, body = some a → (next a).Meets env good statuses) :
  Service.Meets env (Route.validated body next) good statuses
  := by
  unfold Route.validated
  cases body with
  | some a => exact valid a rfl
  | none => exact .done unprocessable

/-- A use case that refuses what is documented, before what its result is shown as. -/
theorem step {β : Type} {x : Service BucketRequest α} {next : α → Service BucketRequest β}
    {good : β → Prop} {statuses' : List ℕ} (h : x.Meets env (fun _ => True) statuses')
    (more : statuses' ⊆ statuses) (shown : ∀ a, (next a).Meets env good statuses) :
  Service.Meets env (x >>= next) good statuses
  := .andThen (h.more more) shown

end Service.Meets

/-! ### Routes -/

/-- The bucket of the API refuses uploads as it should. -/
theorem Api.sound (api : Api) :
  api.storage.media.Sound env
  := api.storage.sound (fun _ _ => api.pillow.within_renderImage)
    fun _ _ => api.pillow.within_renderSquare

namespace Route

/-- A product that cannot be shown is an internal error. -/
theorem meets_read (product : Product) (urlFor : String → String) :
  Service.Meets env (ofExcept (ProductRead.of product urlFor) : Service BucketRequest ProductRead)
    (fun _ => True) []
  := by
  refine .ofExcept (fun _ _ => trivial) fun e he => ?_
  unfold ProductRead.of at he
  split at he
  · cases he
  · cases he
    exact .of_fault nofun

theorem meets_readProducts (urlFor : String → String) (products : List Product) :
  (readProducts urlFor products).Meets env (fun _ => True) []
  := by
  refine .ofExcept (fun _ _ => trivial) fun e he => ?_
  induction products generalizing e with
  | nil => cases he
  | cons product products ih =>
      rw [List.mapM_cons] at he
      obtain he | ⟨_, _, he⟩ := Except.bind_eq_error.mp he
      · unfold ProductRead.of at he
        split at he
        · cases he
        · cases he
          exact .of_fault nofun
      · obtain he | ⟨_, _, he⟩ := Except.bind_eq_error.mp he
        · exact ih e he
        · exact absurd he Except.pure_ne_error

theorem meets_readInvitations (views : List InvitationView) :
  (readInvitations views).Meets env (fun _ => True) []
  := by
  induction views with
  | nil => exact .done trivial
  | cons view views ih =>
      exact .andThen (.perform nofun) fun _ => .andThen ih fun _ => .done trivial

/-- The errors that all routes on a workspace document. -/
theorem documents (own : List ℕ) {statuses : List ℕ} (h : statuses ⊆ [401, 403, 404, 422] ++ own) :
  statuses ⊆ workspaceScopedErrors ++ validationErrors ++ own
  := h

variable (api incoming)

theorem meets_listProducts {slug : String} (scope : CurrentWorkspace) (query : ListQuery) :
  Service.Meets env (listProducts api scope query)
    ((products slug (.list query)).Answer api incoming)
    (products slug (.list query)).errorResponses
  := by
  refine .andThen (.checked fun error herror => ?_) fun filter => ?_
  · unfold ProductService.filter at herror
    obtain herror | ⟨_, _, herror⟩ := Except.bind_eq_error.mp herror
    · rw [ProductTx.refuses_parseOrder herror]
      exact documents [] (by decide : [422] ⊆ [401, 403, 404, 422]) (List.mem_singleton_self _)
    · exact absurd herror Except.pure_ne_error
  · dsimp only
    split
    · next cursor sent =>
        have declared : (products slug (.list query)).responseModel = .cursorPage := by
          simp [responseModel, productResponseModel, sent]
        refine .andThen ((ProductService.meets_after ..).more (documents [] (by decide)))
          fun page => ?_
        exact .andThen ((meets_readProducts _ _).more (List.nil_subset _)) fun items =>
          .done (.success declared.symm)
    · next unsent =>
        have declared : (products slug (.list query)).responseModel = .page := by
          simp [responseModel, productResponseModel, unsent]
        refine .andThen ((ProductService.meets_page ..).more (List.nil_subset _)) fun page => ?_
        exact .andThen ((meets_readProducts _ _).more (List.nil_subset _)) fun items =>
          .done (.success declared.symm)

theorem meets_productRoute {slug : String} (scope : CurrentWorkspace) (route : ProductRoute) :
  Service.Meets env (productRoute api scope route) ((products slug route).Answer api incoming)
    (products slug route).errorResponses
  := by
  have unprocessable {route : ProductRoute} :
      (products slug route).Answer api incoming .unprocessable :=
    .documented (documents _ (List.subset_append_left _ _) (by decide : 422 ∈ [401, 403, 404, 422]))
      ⟨nofun, nofun, nofun⟩
  have shown (product : Product) {route : ProductRoute} (status : ℕ)
      (success : (products slug route).statusCode = status)
      (declared : (products slug route).responseModel = .product) :
      Service.Meets env
        (do return reply status (.product (← ofExcept (ProductRead.of product api.urlFor))))
        ((products slug route).Answer api incoming) (products slug route).errorResponses :=
    .andThen ((meets_read product api.urlFor).more (List.nil_subset _)) fun _ =>
      .done (success ▸ .success declared.symm)
  cases route with
  | list query =>
      refine .validated unprocessable fun query' valid => ?_
      obtain rfl : query' = query := ListQuery.validate_eq_some valid
      exact meets_listProducts api incoming scope query'
  | create body =>
      exact .validated unprocessable fun input _ =>
        .step (ProductService.meets_create ..) (documents [409, 429] (by decide)) fun product =>
          shown product 201 rfl rfl
  | get productId =>
      exact .step (ProductService.meets_get ..) (documents [404] (by decide)) fun product =>
        shown product 200 rfl rfl
  | update productId body ifMatch =>
      exact .validated unprocessable fun update _ =>
        .step (ProductService.meets_update ..) (documents [404, 412] (by decide)) fun product =>
          shown product 200 rfl rfl
  | delete productId =>
      exact .step (ProductService.meets_delete _ api.sound _ _) (documents [404] (by decide))
        fun _ => .done (.success rfl)
  | presignImage productId body =>
      exact .validated unprocessable fun body _ =>
        .step (ProductService.meets_requestImageUpload ..)
          (documents [404, 409, 415, 429] (by decide)) fun ticket => .done (.success rfl)
  | confirmImage productId body =>
      exact .validated unprocessable fun body _ =>
        .step (ProductService.meets_confirmImage _ api.sound _ _ _)
          (documents [404, 409, 413, 415, 429] (by decide)) fun image => .done (.success rfl)
  | deleteImage productId imageId =>
      exact .step (ProductService.meets_removeImage _ api.sound _ _ _)
        (documents [404] (by decide)) fun _ => .done (.success rfl)
  | reorderImages productId body =>
      exact .validated unprocessable fun body _ =>
        .step (ProductService.meets_reorderImages ..) (documents [404] (by decide)) fun product =>
          shown product 200 rfl rfl

theorem meets_workspaceRoute {slug : String} (workspace : CurrentWorkspace) (user : CurrentUser)
    (route : WorkspaceRoute) :
  Service.Meets env (workspaceRoute api workspace user route)
    ((Route.workspace slug route).Answer api incoming) (Route.workspace slug route).errorResponses
  := by
  have unprocessable {route : WorkspaceRoute} :
      (Route.workspace slug route).Answer api incoming .unprocessable :=
    .documented (documents _ (List.subset_append_left _ _) (by decide : 422 ∈ [401, 403, 404, 422]))
      ⟨nofun, nofun, nofun⟩
  cases route with
  | get =>
      exact .step (.read (WorkspaceTx.refuses_get _ _)) (documents [] (by decide)) fun view =>
        .done (.success rfl)
  | update body =>
      exact .validated unprocessable fun body _ =>
        .step (WorkspaceService.meets_update ..) (documents [409] (by decide)) fun view =>
          .done (.success rfl)
  | presignLogo body =>
      exact .validated unprocessable fun body _ =>
        .step (WorkspaceService.meets_requestLogoUpload ..) (documents [415] (by decide))
          fun ticket => .done (.success rfl)
  | confirmLogo body =>
      exact .validated unprocessable fun body _ =>
        .step (WorkspaceService.meets_setLogo _ api.sound _ _ _
          ((MediaStorage.meets_storeSome api.sound body.key).more
            (by decide : _ ⊆ [401, 403, 404, 413, 415, 422])) (by decide))
          (documents [413, 415, 422] (by decide)) fun view => .done (.success rfl)
  | deleteLogo =>
      exact .step (WorkspaceService.meets_setLogo _ api.sound _ none _ (.done trivial)
        (List.Subset.refl _)) (documents [] (by decide)) fun view => .done (.success rfl)
  | delete =>
      exact .step (.transaction (WorkspaceTx.refuses_delete _ _)) (documents [] (by decide))
        fun _ => .done (.success rfl)
  | roles =>
      exact .step (.read (WorkspaceTx.refuses_roles _ _)) (documents [] (by decide)) fun views =>
        .done (.success rfl)
  | createRole body =>
      exact .validated unprocessable fun body _ =>
        .step (WorkspaceService.meets_saveRole ..) (documents [409] (by decide)) fun view =>
          .done (.success rfl)
  | updateRole roleId body =>
      exact .validated unprocessable fun body _ =>
        .step (WorkspaceService.meets_saveRole ..) (documents [409] (by decide)) fun view =>
          .done (.success rfl)
  | deleteRole roleId =>
      exact .step (.transaction (WorkspaceTx.refuses_deleteRole _ _ _))
        (documents [409] (by decide)) fun _ => .done (.success rfl)
  | setPermissions roleId body =>
      exact .validated unprocessable fun body _ =>
        .step (.transaction (WorkspaceTx.refuses_setPermissions _ _ _ _))
          (documents [] (by decide)) fun _ => .done (.success rfl)
  | permissions =>
      exact .step (.read (WorkspaceTx.refuses_permissionCatalog _ _)) (documents [] (by decide))
        fun entries => .done (.success rfl)
  | members =>
      exact .step (.read (WorkspaceTx.refuses_members _ _)) (documents [] (by decide)) fun views =>
        .done (.success rfl)
  | setMemberRole memberId body =>
      exact .step (.transaction (WorkspaceTx.refuses_setMemberRole _ _ _ _))
        (documents [409] (by decide)) fun _ => .done (.success rfl)
  | removeMember memberId =>
      exact .step (.transaction (WorkspaceTx.refuses_removeMember _ _ _))
        (documents [409] (by decide)) fun _ => .done (.success rfl)
  | transferOwnership body =>
      exact .step (.transaction (WorkspaceTx.refuses_transfer _ _ _))
        (documents [409] (by decide)) fun _ => .done (.success rfl)
  | invitations =>
      exact .step (.read (WorkspaceTx.refuses_invitations _ _)) (documents [] (by decide))
        fun views => .step (meets_readInvitations views) (List.nil_subset _) fun _ =>
          .done (.success rfl)
  | invite body =>
      exact .validated unprocessable fun body _ =>
        .step (WorkspaceService.meets_invite ..) (documents [409] (by decide)) fun created =>
          .andThen (.perform nofun) fun _ => .done (.success rfl)
  | revokeInvitation invitationId =>
      exact .step (.transaction (WorkspaceTx.refuses_revoke _ _ _)) (documents [409] (by decide))
        fun _ => .done (.success rfl)

theorem meets_accountRoute (user : CurrentUser) (route : AccountRoute) :
  Service.Meets env (accountRoute api user route) ((account route).Answer api incoming)
    (account route).errorResponses
  := by
  have unprocessable {route : AccountRoute} (documented : 422 ∈ accountErrors route) :
      (account route).Answer api incoming .unprocessable :=
    .documented documented ⟨nofun, nofun, nofun⟩
  cases route with
  | me =>
      exact .step (.read (AccountTx.refuses_profile _)) (by decide) fun view =>
        .done (.success rfl)
  | updateMe body =>
      exact .validated (unprocessable (by simp [accountErrors, validationErrors])) fun body _ =>
        .step (AccountService.meets_rename ..) (List.subset_append_left _ _) fun view =>
          .done (.success rfl)
  | presignAvatar body =>
      exact .validated (unprocessable (by simp [accountErrors, validationErrors])) fun body _ =>
        .step (AccountService.meets_requestAvatarUpload ..) (List.subset_append_left _ _)
          fun ticket => .done (.success rfl)
  | confirmAvatar body =>
      exact .validated (unprocessable (by simp [accountErrors])) fun body _ =>
        .step (AccountService.meets_setAvatar _ api.sound _ _
          ((MediaStorage.meets_storeSome api.sound body.key).more
            (by decide : _ ⊆ [401, 404, 413, 415, 422])) (by decide))
          (List.Subset.refl _) fun view => .done (.success rfl)
  | deleteAvatar =>
      exact .step (AccountService.meets_setAvatar _ api.sound _ none (.done trivial)
        (List.Subset.refl _)) (by decide) fun view => .done (.success rfl)
  | deleteMe =>
      exact .step (AccountService.meets_delete _ api.sound _ _) (by decide) fun _ =>
        .done (.success rfl)
  | workspaces =>
      exact .step (.read (WorkspaceTx.refuses_listMine _)) (by decide) fun views =>
        .done (.success rfl)
  | createWorkspace body =>
      exact .validated (unprocessable (by simp [accountErrors, validationErrors])) fun body _ =>
        .step (WorkspaceService.meets_create ..) (List.Subset.refl _) fun view =>
          .done (.success rfl)
  | slugAvailability slug =>
      exact .step (.read (WorkspaceTx.refuses_slugAvailable _ _)) (List.Subset.refl _)
        fun available => .done (.success rfl)
  | acceptInvitation body =>
      exact .validated (unprocessable (by simp [accountErrors, validationErrors])) fun body _ =>
        .step (.transaction (refuses_joinWithInvitation _ _)) (List.subset_append_left _ _)
          fun view => .done (.success rfl)

theorem answers_program (route : Route) :
  Handler.Answers env (route.program api incoming) (route.Answer api incoming)
  := by
  cases route with
  | health => exact Route.Answer.success rfl
  | ready =>
      have asked : Service.Meets env (read (pure ()) : Service BucketRequest Unit) (fun _ => True) [] :=
        .read (.pure ())
      refine .of_meets (.outcome asked (fun _ _ => .done (.success rfl)) fun _ _ => ?_)
      exact .done (.documented (by decide) ⟨nofun, nofun, nofun⟩)
  | register body =>
      have documented : 422 ∈ (register body).errorResponses := by simp [errorResponses]
      refine .limited (by simp [errorResponses]) (.of_meets ?_)
      refine .validated (.documented documented ⟨nofun, nofun, nofun⟩) fun body _ => ?_
      exact .step (AccountService.meets_register ..) (by simp [errorResponses]) fun _ =>
        .done (.success rfl)
  | invitationPreview token =>
      exact .of_meets (.step (WorkspaceTx.meets_previewInvitation token)
        (List.subset_append_left _ _) fun preview => .done (.success rfl))
  | account route =>
      refine .authenticated rfl ?_ fun user => .of_meets (meets_accountRoute api incoming user route)
      cases route with
      | _ => simp [errorResponses, accountErrors, authenticatedErrors, onboardedErrors]
  | workspace slug route =>
      unfold program
      refine .authenticated ?_ ?_ fun user => .of_meets ?_
      · rfl
      · exact List.mem_cons_self ..
      · exact .step (.read (refuses_workspace _ _ _)) (documents _ (by simp)) fun workspace =>
          meets_workspaceRoute api incoming _ user route
  | products slug route =>
      unfold program
      refine .authenticated ?_ ?_ fun user => ?_
      · rfl
      · exact List.mem_cons_self ..
      · have passed : Handler.Answers env
            (workspaceAccess (some (productAction route)) slug user fun scope =>
              productRoute api scope route) ((products slug route).Answer api incoming) :=
          .of_meets (.step (.read (refuses_workspace _ _ _)) (documents _ (by simp)) fun workspace =>
            meets_productRoute api incoming _ route)
        unfold limitedIn
        split
        · next bucket hbucket =>
            refine .limited ?_ passed
            cases route with
            | create => simp [errorResponses, productErrors]
            | presignImage => simp [errorResponses, productErrors]
            | confirmImage => simp [errorResponses, productErrors]
            | _ => cases hbucket
        · exact passed

/-! ### Requests -/

/-- However the requests to the services are answered, what a request ends with is an answer. -/
theorem answers_serve (route : Route) :
  Leads (answering BucketRequest env) (route.serve api incoming) () fun y _ =>
    ∃ response, y = .ok response ∧ route.Answer api incoming response
  := by
  unfold serve verifyOrigin
  split
  · exact (answers_program api incoming route).handled
  · next secret guard =>
      split
      · next refused => exact ⟨_, rfl, .origin guard refused.1 refused.2⟩
      · exact (answers_program api incoming route).handled

end Route

end MvpApi
