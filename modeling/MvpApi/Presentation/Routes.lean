import MvpApi.Presentation.Dependencies

/-!
# The routes of the API

The routes with their parameters and bodies, as they are sent. The program of a route goes
through its checks in the order in which they are declared, validates what was sent, calls one
use case and shapes the answer. A request that is not served by a route is left out, and so are
the routes of the documentation.
-/

set_option autoImplicit false

namespace MvpApi

open Program

/-! ### Routes -/

/-- What a list of products is asked with. -/
structure ListQuery where
  page : ℤ := 1
  size : ℤ := 50
  search : Option String := none
  status : Option ProductStatus := none
  orderBy : Option String := some defaultOrder
  cursor : Option String := none
deriving DecidableEq, Repr

/-- Pages are numbered from 1, and have up to 100 products. -/
def ListQuery.validate (query : ListQuery) : Option ListQuery :=
  if 1 ≤ query.page ∧ 1 ≤ query.size ∧ query.size ≤ 100
      ∧ ∀ search ∈ query.search, HasLength 0 100 search then
    some query
  else none

/-- The routes on the products of a workspace. -/
inductive ProductRoute where
  | list (query : ListQuery)
  | create (body : ProductCreate)
  | get (productId : String)
  | update (productId : String) (body : ProductPatch) (ifMatch : Option Time)
  | delete (productId : String)
  | presignImage (productId : String) (body : UploadRequest)
  | confirmImage (productId : String) (body : UploadConfirm)
  | deleteImage (productId imageId : String)
  | reorderImages (productId : String) (body : ProductImageOrder)
deriving DecidableEq

/-- The routes on a workspace, its roles, members and invitations. -/
inductive WorkspaceRoute where
  | get
  | update (body : WorkspaceInput)
  | presignLogo (body : UploadRequest)
  | confirmLogo (body : UploadConfirm)
  | deleteLogo
  | delete
  | roles
  | createRole (body : RoleInput)
  | updateRole (roleId : String) (body : RoleInput)
  | deleteRole (roleId : String)
  | setPermissions (roleId : String) (body : PermissionsInput)
  | permissions
  | members
  | setMemberRole (memberId : String) (body : MemberRoleInput)
  | removeMember (memberId : String)
  | transferOwnership (body : TransferInput)
  | invitations
  | invite (body : InvitationInput)
  | revokeInvitation (invitationId : String)
deriving DecidableEq

/-- The other routes that need an account. -/
inductive AccountRoute where
  | me
  | updateMe (body : ProfileUpdate)
  | presignAvatar (body : UploadRequest)
  | confirmAvatar (body : UploadConfirm)
  | deleteAvatar
  | deleteMe
  | workspaces
  | createWorkspace (body : WorkspaceInput)
  | slugAvailability (slug : String)
  | acceptInvitation (body : AcceptInvitationInput)
deriving DecidableEq

/-- The routes of the API. -/
inductive Route where
  | health
  | ready
  | register (body : RegisterInput)
  | invitationPreview (token : String)
  | account (route : AccountRoute)
  | workspace (slug : String) (route : WorkspaceRoute)
  | products (slug : String) (route : ProductRoute)
deriving DecidableEq

/-- The body of an answer that is no error. -/
inductive Reply where
  | empty
  | status (status : String)
  | registered
  | profile (profile : ProfileRead)
  | workspace (workspace : WorkspaceRead)
  | workspaces (workspaces : List WorkspaceRead)
  | availability (available : Bool)
  | ticket (ticket : UploadTicket)
  | role (role : RoleRead)
  | roles (roles : List RoleRead)
  | permissions (permissions : List CatalogEntry)
  | members (members : List MemberRead)
  | invitations (invitations : List InvitationRead)
  | invited (invitation : InvitationCreated)
  | preview (preview : InvitationPreviewRead)
  | product (product : ProductRead)
  | image (image : ProductImageRead)
  | page (page : Page)
  | cursorPage (page : ProductCursorPage)
deriving DecidableEq

/-- The models of the bodies in the schema. -/
inductive ResponseModel where
  | empty
  | status
  | registered
  | profile
  | workspace
  | workspaces
  | availability
  | ticket
  | role
  | roles
  | permissions
  | members
  | invitations
  | invited
  | preview
  | product
  | image
  | page
  | cursorPage
deriving DecidableEq, Repr

/-- The model of a body. -/
def Reply.model : Reply → ResponseModel
  | .empty => .empty
  | .status _ => .status
  | .registered => .registered
  | .profile _ => .profile
  | .workspace _ => .workspace
  | .workspaces _ => .workspaces
  | .availability _ => .availability
  | .ticket _ => .ticket
  | .role _ => .role
  | .roles _ => .roles
  | .permissions _ => .permissions
  | .members _ => .members
  | .invitations _ => .invitations
  | .invited _ => .invited
  | .preview _ => .preview
  | .product _ => .product
  | .image _ => .image
  | .page _ => .page
  | .cursorPage _ => .cursorPage

/-- What a route is, once its checks are passed and its answer is given. -/
abbrev Handler := Service BucketRequest (Response Reply)

namespace Route

/-- An answer with a body. -/
def reply (status : ℕ) (body : Reply) : Response Reply := ⟨status, [], .ok body⟩

/-- Show the products of a list. -/
def readProducts (urlFor : String → String) (products : List Product) :
    Service BucketRequest (List ProductRead) :=
  ofExcept (products.mapM (ProductRead.of · urlFor))

/-- Show the invitations of a list, each as it stands when it is shown. -/
def readInvitations : List InvitationView → Service BucketRequest (List InvitationRead)
  | [] => return []
  | view :: views => do
      let now ← perform .now
      return InvitationRead.of now view :: (← readInvitations views)

variable (api : Api) (incoming : Incoming)

/-! ### Products -/

/-- The action that a route on products needs. -/
def productAction : ProductRoute → String
  | .list _ => "products.read"
  | .create _ => "products.create"
  | .get _ => "products.read"
  | .update .. => "products.update"
  | .delete _ => "products.delete"
  | .presignImage .. => "products.update"
  | .confirmImage .. => "products.update"
  | .deleteImage .. => "products.update"
  | .reorderImages .. => "products.update"

/-- The bucket that the rate of a route on products is limited in, if it is. -/
def productBucket : ProductRoute → Option String
  | .create _ => some "products:create"
  | .presignImage .. => some "products:add_image"
  | .confirmImage .. => some "products:add_image"
  | _ => none

def listProducts (scope : CurrentWorkspace) (query : ListQuery) : Handler := do
  let filter ← ofExcept ((ProductService.filter query.search query.status query.orderBy).mapError
    .domain)
  let size := query.size.toNat
  match query.cursor with
  | some cursor => do
      let (items, nextCursor) ← ProductService.after api.codec scope.id filter
        ((some cursor).filter (· ≠ "")) size
      return reply 200 (.cursorPage ⟨← readProducts api.urlFor items, nextCursor⟩)
  | none => do
      let (items, total) ← ProductService.page scope.id filter query.page.toNat size
      return reply 200 (.page
        ⟨← readProducts api.urlFor items, total, query.page.toNat, size, (total + size - 1) / size⟩)

/-- A route on products, in a workspace that the caller may act in. -/
def productRoute (scope : CurrentWorkspace) : ProductRoute → Handler
  | .list query => validated query.validate fun query => listProducts api scope query
  | .create body => validated body.validate fun input => do
      let product ← api.services.products.create scope.id input.name input.sku input.price
        input.status input.description
      return reply 201 (.product (← ofExcept (ProductRead.of product api.urlFor)))
  | .get productId => do
      let product ← ProductService.get scope.id productId
      return reply 200 (.product (← ofExcept (ProductRead.of product api.urlFor)))
  | .update productId body ifMatch => validated body.validate fun update => do
      let product ← ProductService.update scope.id productId update.changes ifMatch
      return reply 200 (.product (← ofExcept (ProductRead.of product api.urlFor)))
  | .delete productId => do
      api.services.products.delete scope.id productId
      return reply 204 .empty
  | .presignImage productId body => validated body.validate fun body => do
      let ticket ← ProductService.requestImageUpload api.storage api.signer scope.id productId
        body.contentType
      return reply 200 (.ticket ticket)
  | .confirmImage productId body => validated body.validate fun body => do
      let image ← api.services.products.confirmImage scope.id productId body.key
      return reply 201 (.image (ProductImageRead.of image api.urlFor))
  | .deleteImage productId imageId => do
      api.services.products.removeImage scope.id productId imageId
      return reply 204 .empty
  | .reorderImages productId body => validated body.validate fun body => do
      let product ← ProductService.reorderImages scope.id productId body.imageIds
      return reply 200 (.product (← ofExcept (ProductRead.of product api.urlFor)))

/-! ### Workspaces -/

/-- A route on a workspace, which the caller belongs to. -/
def workspaceRoute (workspace : CurrentWorkspace) (user : CurrentUser) :
    WorkspaceRoute → Handler
  | .get => do
      let view ← read (WorkspaceTx.get workspace.id user.id)
      return reply 200 (.workspace (.of view))
  | .update body => validated body.validate fun body => do
      let view ← WorkspaceService.update workspace.id body.name body.slug user.id
      return reply 200 (.workspace (.of view))
  | .presignLogo body => validated body.validate fun body => do
      let ticket ← WorkspaceService.requestLogoUpload api.storage api.signer workspace.id user.id
        body.contentType
      return reply 200 (.ticket ticket)
  | .confirmLogo body => validated body.validate fun body => do
      let view ← api.services.workspaces.setLogo workspace.id (some body.key) user.id
      return reply 200 (.workspace (.of view))
  | .deleteLogo => do
      let view ← api.services.workspaces.setLogo workspace.id none user.id
      return reply 200 (.workspace (.of view))
  | .delete => do
      WorkspaceService.delete workspace.id user.id
      return reply 204 .empty
  | .roles => do
      let views ← read (WorkspaceTx.roles workspace.id user.id)
      return reply 200 (.roles (views.map RoleRead.of))
  | .createRole body => validated body.validate fun body => do
      let view ← WorkspaceService.saveRole workspace.id none body.name user.id
      return reply 201 (.role (.of view))
  | .updateRole roleId body => validated body.validate fun body => do
      let view ← WorkspaceService.saveRole workspace.id (some roleId) body.name user.id
      return reply 200 (.role (.of view))
  | .deleteRole roleId => do
      WorkspaceService.deleteRole workspace.id roleId user.id
      return reply 204 .empty
  | .setPermissions roleId body => validated body.validate fun body => do
      WorkspaceService.setPermissions workspace.id roleId body.permissions user.id
      return reply 204 .empty
  | .permissions => do
      let entries ← read (WorkspaceTx.permissionCatalog workspace.id user.id)
      return reply 200 (.permissions entries)
  | .members => do
      let views ← read (WorkspaceTx.members workspace.id user.id)
      return reply 200 (.members (views.map MemberRead.ofMember))
  | .setMemberRole memberId body => do
      WorkspaceService.setMemberRole workspace.id memberId body.roleId user.id
      return reply 204 .empty
  | .removeMember memberId => do
      WorkspaceService.removeMember workspace.id memberId user.id
      return reply 204 .empty
  | .transferOwnership body => do
      WorkspaceService.transfer workspace.id body.userId user.id
      return reply 204 .empty
  | .invitations => do
      let views ← read (WorkspaceTx.invitations workspace.id user.id)
      return reply 200 (.invitations (← readInvitations views))
  | .invite body => validated (body.validate api.emailStr) fun body => do
      let created ← api.services.workspaces.invite workspace.id body.email body.roleId user.id
      let now ← perform .now
      return reply 201 (.invited (.created now created))
  | .revokeInvitation invitationId => do
      WorkspaceService.revokeInvitation workspace.id invitationId user.id
      return reply 204 .empty

/-! ### Accounts -/

/-- A route that needs an account, apart from those on one workspace. -/
def accountRoute (user : CurrentUser) : AccountRoute → Handler
  | .me => do
      let view ← read (AccountTx.profile user.id)
      return reply 200 (.profile (.of view))
  | .updateMe body => validated body.validate fun body => do
      let view ← AccountService.rename user.id body.displayName
      return reply 200 (.profile (.of view))
  | .presignAvatar body => validated body.validate fun body => do
      let ticket ← AccountService.requestAvatarUpload api.storage api.signer user.id
        body.contentType
      return reply 200 (.ticket ticket)
  | .confirmAvatar body => validated body.validate fun body => do
      let view ← api.services.accounts.setAvatar user.id (some body.key)
      return reply 200 (.profile (.of view))
  | .deleteAvatar => do
      let view ← api.services.accounts.setAvatar user.id none
      return reply 200 (.profile (.of view))
  | .deleteMe => do
      api.services.accounts.delete api.rounds user.id
      return reply 204 .empty
  | .workspaces => do
      let views ← read (WorkspaceTx.listMine user.id)
      return reply 200 (.workspaces (views.map WorkspaceRead.of))
  | .createWorkspace body => validated body.validate fun body => do
      let view ← WorkspaceService.create body.name body.slug user.id
      return reply 201 (.workspace (.of view))
  | .slugAvailability slug => do
      let available ← read (WorkspaceTx.slugAvailable slug user.id)
      return reply 200 (.availability available)
  | .acceptInvitation body => validated body.validate fun body => do
      let view ← WorkspaceService.acceptInvitation body.token user.id
      return reply 200 (.workspace (.of view))

/-- The program of a route. -/
def program : Route → Handler
  | .health => return reply 200 (.status "ok")
  | .ready => do
      match ← (read (pure ()) : Service BucketRequest Unit).outcome with
      | .ok _ => return reply 200 (.status "ready")
      | .error _ => return ⟨503, [], .error (.text "Not ready: database")⟩
  | .register body => limited incoming "auth:register" incoming.clientAddress <|
      validated (body.validate api.emailStr api.lower) fun body => do
        api.services.accounts.register body.email body.password body.displayName
          body.invitationToken
        return { reply 201 .registered with headers := [("Cache-Control", "no-store")] }
  | .invitationPreview token => do
      let preview ← read (WorkspaceTx.previewInvitation token)
      return reply 200 (.preview (.of preview))
  | .account route => authenticated api.settings incoming fun user => accountRoute api user route
  | .workspace slug route => authenticated api.settings incoming fun user =>
      workspaceAccess none slug user fun workspace => workspaceRoute api workspace user route
  | .products slug route => authenticated api.settings incoming fun user =>
      limitedIn incoming (productBucket route) user.id <|
        workspaceAccess (some (productAction route)) slug user fun scope =>
          productRoute api scope route

/-- Serve a request: verify its origin, run its route and answer its errors. -/
def serve (route : Route) : Handler :=
  verifyOrigin api.settings.originGuard incoming (handled (route.program api incoming))

/-! ### What the schema says about answers -/

/-- The errors that the routes of a kind can answer, and those of all routes with parameters or
a body. -/
def authenticatedErrors : List ℕ := [401]
def onboardedErrors : List ℕ := [401, 403]
def workspaceScopedErrors : List ℕ := [401, 403, 404]
def validationErrors : List ℕ := [422]

def accountErrors : AccountRoute → List ℕ
  | .me => authenticatedErrors
  | .updateMe _ => authenticatedErrors ++ validationErrors
  | .presignAvatar _ => authenticatedErrors ++ [415] ++ validationErrors
  | .confirmAvatar _ => authenticatedErrors ++ [404, 413, 415, 422]
  | .deleteAvatar => authenticatedErrors
  | .deleteMe => authenticatedErrors ++ [403, 409]
  | .workspaces => onboardedErrors
  | .createWorkspace _ => onboardedErrors ++ [409] ++ validationErrors
  | .slugAvailability _ => onboardedErrors ++ validationErrors
  | .acceptInvitation _ => onboardedErrors ++ [404, 409, 410] ++ validationErrors

/-- What a route on a workspace documents beyond what all of them do. -/
def workspaceErrors : WorkspaceRoute → List ℕ
  | .get => []
  | .update _ => [409]
  | .presignLogo _ => [415]
  | .confirmLogo _ => [413, 415, 422]
  | .deleteLogo => []
  | .delete => []
  | .roles => []
  | .createRole _ => [409]
  | .updateRole .. => [409]
  | .deleteRole _ => [409]
  | .setPermissions .. => []
  | .permissions => []
  | .members => []
  | .setMemberRole .. => [409]
  | .removeMember _ => [409]
  | .transferOwnership _ => [409]
  | .invitations => []
  | .invite _ => [409]
  | .revokeInvitation _ => [409]

/-- What a route on products documents beyond what all of them do. -/
def productErrors : ProductRoute → List ℕ
  | .list _ => []
  | .create _ => [409, 429]
  | .get _ => [404]
  | .update .. => [404, 412]
  | .delete _ => [404]
  | .presignImage .. => [404, 409, 415, 429]
  | .confirmImage .. => [404, 409, 413, 415, 429]
  | .deleteImage .. => [404]
  | .reorderImages .. => [404]

/-- The statuses of the errors that the schema documents for a route. -/
def errorResponses : Route → List ℕ
  | .health => []
  | .ready => [503]
  | .register _ => [422, 429]
  | .invitationPreview _ => [410] ++ validationErrors
  | .account route => accountErrors route
  | .workspace _ route => workspaceScopedErrors ++ validationErrors ++ workspaceErrors route
  | .products _ route => workspaceScopedErrors ++ validationErrors ++ productErrors route

/-- The status of the answer that is no error. -/
def statusCode : Route → ℕ
  | .register _ => 201
  | .account .deleteMe => 204
  | .account (.createWorkspace _) => 201
  | .workspace _ .delete => 204
  | .workspace _ (.createRole _) => 201
  | .workspace _ (.deleteRole _) => 204
  | .workspace _ (.setPermissions ..) => 204
  | .workspace _ (.setMemberRole ..) => 204
  | .workspace _ (.removeMember _) => 204
  | .workspace _ (.transferOwnership _) => 204
  | .workspace _ (.invite _) => 201
  | .workspace _ (.revokeInvitation _) => 204
  | .products _ (.create _) => 201
  | .products _ (.delete _) => 204
  | .products _ (.confirmImage ..) => 201
  | .products _ (.deleteImage ..) => 204
  | _ => 200

/-- The headers of the answer that is no error. -/
def headers : Route → List (String × String)
  | .register _ => [("Cache-Control", "no-store")]
  | _ => []

def workspaceResponseModel : WorkspaceRoute → ResponseModel
  | .get => .workspace
  | .update _ => .workspace
  | .presignLogo _ => .ticket
  | .confirmLogo _ => .workspace
  | .deleteLogo => .workspace
  | .roles => .roles
  | .createRole _ => .role
  | .updateRole .. => .role
  | .permissions => .permissions
  | .members => .members
  | .invitations => .invitations
  | .invite _ => .invited
  | _ => .empty

/-- A list of products is declared with two models, and the cursor decides on one of them. -/
def productResponseModel : ProductRoute → ResponseModel
  | .list query => if query.cursor.isSome then .cursorPage else .page
  | .delete _ => .empty
  | .presignImage .. => .ticket
  | .confirmImage .. => .image
  | .deleteImage .. => .empty
  | _ => .product

def accountResponseModel : AccountRoute → ResponseModel
  | .me => .profile
  | .updateMe _ => .profile
  | .presignAvatar _ => .ticket
  | .confirmAvatar _ => .profile
  | .deleteAvatar => .profile
  | .deleteMe => .empty
  | .workspaces => .workspaces
  | .createWorkspace _ => .workspace
  | .slugAvailability _ => .availability
  | .acceptInvitation _ => .workspace

/-- The model of the answer that is no error. -/
def responseModel : Route → ResponseModel
  | .health => .status
  | .ready => .status
  | .register _ => .registered
  | .invitationPreview _ => .preview
  | .account route => accountResponseModel route
  | .workspace _ route => workspaceResponseModel route
  | .products _ route => productResponseModel route

/-- Whether a route needs an account. -/
def needsAccount : Route → Bool
  | .account _ => true
  | .workspace .. => true
  | .products .. => true
  | _ => false

end Route

end MvpApi
