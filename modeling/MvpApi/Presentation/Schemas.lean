import MvpApi.Application.Accounts
import MvpApi.Application.Products
import MvpApi.Application.Services

/-!
# Request and response bodies

The bodies that the API takes, with what it requires of their fields, and those that it answers
with. A body that is not valid is answered before its use case runs; a valid one is handed on as
the schema leaves it, with names stripped and addresses in lower case.
-/

set_option autoImplicit false

namespace MvpApi

/-! ### Fields -/

/-- Whether the number of characters of a text is within two bounds. -/
def HasLength (least most : ℕ) (s : String) : Prop :=
  least ≤ s.toList.length ∧ s.toList.length ≤ most

instance (least most : ℕ) (s : String) : Decidable (HasLength least most s) :=
  inferInstanceAs (Decidable (_ ∧ _))

/-- A field of a body that need not have it. -/
inductive Sent (α : Type) where
  | absent
  | null
  | value (a : α)
deriving DecidableEq, Repr

namespace Sent

variable {α β : Type}

/-- The value of a field, if it has one. -/
def toOption : Sent α → Option α
  | .value a => some a
  | _ => none

/-- Whether the client sent the field. -/
def isSent : Sent α → Bool
  | .absent => false
  | _ => true

/-- Whether the value of the field, if it has one, is as required. -/
def All (p : α → Prop) (field : Sent α) : Prop := ∀ a ∈ field.toOption, p a

instance (p : α → Prop) [DecidablePred p] (field : Sent α) : Decidable (field.All p) :=
  inferInstanceAs (Decidable (∀ a ∈ field.toOption, p a))

end Sent

/-- The price that a number stands for: it is not negative, has no more than two decimals, and
no more than ten digits with them. -/
def priceOf : Decimal → Option Price
  | .finite value =>
      if (value * 100).den = 1 ∧ 0 ≤ (value * 100).num ∧ (value * 100).num < 10 ^ 10 then
        some (value * 100).num
      else none
  | _ => none

/-! ### Products -/

structure ProductCreate where
  name : String
  sku : Option String := none
  price : Decimal := .finite 0
  status : ProductStatus := .draft
  description : Option String := none
deriving DecidableEq

/-- What a valid body creates a product with. -/
structure ProductInput where
  name : String
  sku : Option String
  price : Price
  status : ProductStatus
  description : Option String
deriving DecidableEq, Repr

/-- The texts of a product are within their lengths. -/
structure ProductInput.Valid (input : ProductInput) : Prop where
  name : HasLength 1 200 input.name
  sku : ∀ sku ∈ input.sku, HasLength 0 64 sku
  price : 0 ≤ input.price ∧ input.price < 10 ^ 10
  description : ∀ description ∈ input.description, HasLength 0 2000 description

instance (input : ProductInput) : Decidable input.Valid :=
  decidable_of_iff (HasLength 1 200 input.name ∧ (∀ sku ∈ input.sku, HasLength 0 64 sku)
      ∧ (0 ≤ input.price ∧ input.price < 10 ^ 10)
      ∧ ∀ description ∈ input.description, HasLength 0 2000 description)
    ⟨fun h => ⟨h.1, h.2.1, h.2.2.1, h.2.2.2⟩, fun h => ⟨h.1, h.2, h.3, h.4⟩⟩

def ProductCreate.validate (body : ProductCreate) : Option ProductInput := do
  let price ← priceOf body.price
  let input : ProductInput := ⟨body.name, body.sku, price, body.status, body.description⟩
  if input.Valid then some input else none

/-- The body of a partial update, as it is sent. -/
structure ProductPatch where
  name : Sent String
  sku : Sent String
  price : Sent Decimal
  status : Sent ProductStatus
  description : Sent String
deriving DecidableEq

/-- A valid partial update: the values of the fields, and the names of those that were sent. -/
structure ProductUpdate where
  name : Option String
  sku : Option String
  price : Option Price
  status : Option ProductStatus
  description : Option String
  fieldsSet : List String
deriving DecidableEq, Repr

/-- The names of the fields that were sent. -/
def ProductPatch.fieldsSet (body : ProductPatch) : List String :=
  (if body.name.isSent then ["name"] else []) ++ (if body.sku.isSent then ["sku"] else [])
    ++ (if body.price.isSent then ["price"] else [])
    ++ (if body.status.isSent then ["status"] else [])
    ++ (if body.description.isSent then ["description"] else [])

/-- The price of a partial update; it is refused if a number was sent that is no price. -/
def ProductPatch.price? (body : ProductPatch) : Option (Option Price) :=
  match body.price with
  | .value price => (priceOf price).map some
  | _ => some none

/-- A name, a price and a status cannot be cleared. -/
def ProductPatch.validate (body : ProductPatch) : Option ProductUpdate := do
  let price ← body.price?
  if body.name ≠ .null ∧ body.price ≠ .null ∧ body.status ≠ .null
      ∧ body.name.All (HasLength 1 200) ∧ body.sku.All (HasLength 0 64)
      ∧ body.description.All (HasLength 0 2000) then
    some ⟨body.name.toOption, body.sku.toOption, price, body.status.toOption,
      body.description.toOption, body.fieldsSet⟩
  else none

/-- The fields the client sent; name, price and status are never null here. -/
def ProductUpdate.changes (update : ProductUpdate) : ProductChanges where
  name := if "name" ∈ update.fieldsSet then update.name else none
  sku := if "sku" ∈ update.fieldsSet then some update.sku else none
  price := if "price" ∈ update.fieldsSet then update.price else none
  status := if "status" ∈ update.fieldsSet then update.status else none
  description := if "description" ∈ update.fieldsSet then some update.description else none

structure ProductImageOrder where
  imageIds : List String
deriving DecidableEq, Repr

def ProductImageOrder.validate (body : ProductImageOrder) : Option ProductImageOrder :=
  if 1 ≤ body.imageIds.length ∧ body.imageIds.length ≤ maxImagesPerProduct then some body else none

structure ProductImageRead where
  id : String
  url : String
  thumbnailUrl : Option String
  contentType : String
  sizeBytes : ℕ
  position : ℕ
  createdAt : Time
deriving DecidableEq, Repr

def ProductImageRead.of (image : ProductImage) (urlFor : String → String) : ProductImageRead where
  id := image.id
  url := urlFor image.key
  thumbnailUrl := (image.thumbKey.filter (· ≠ "")).map urlFor
  contentType := image.contentType
  sizeBytes := image.sizeBytes
  position := image.position
  createdAt := image.createdAt

structure ProductRead where
  id : String
  name : String
  sku : Option String
  price : Price
  status : ProductStatus
  description : Option String
  createdAt : Time
  updatedAt : Time
  images : List ProductImageRead
deriving DecidableEq, Repr

/-- A product as the API shows it. The length of a name is checked here as well. -/
def ProductRead.of (product : Product) (urlFor : String → String) : Except Failure ProductRead :=
  if HasLength 1 200 product.name then
    .ok {
      id := product.id, name := product.name, sku := product.sku, price := product.price
      status := product.status, description := product.description
      createdAt := product.createdAt, updatedAt := product.updatedAt
      images := product.images.map (ProductImageRead.of · urlFor) }
  else .error (.other "ValidationError")

structure ProductCursorPage where
  items : List ProductRead
  nextCursor : Option String
deriving DecidableEq, Repr

/-- A numbered page. -/
structure Page where
  items : List ProductRead
  total : ℕ
  page : ℕ
  size : ℕ
  pages : ℕ
deriving DecidableEq, Repr

/-! ### Uploads -/

structure UploadRequest where
  contentType : String
deriving DecidableEq, Repr

def UploadRequest.validate (body : UploadRequest) : Option UploadRequest :=
  if HasLength 0 64 body.contentType then some body else none

structure UploadConfirm where
  key : String
deriving DecidableEq, Repr

def UploadConfirm.validate (body : UploadConfirm) : Option UploadConfirm :=
  if HasLength 0 64 body.key then some body else none

/-! ### Accounts -/

structure RegisterInput where
  email : String
  password : String
  displayName : String := ""
  invitationToken : Option String := none
deriving DecidableEq, Repr

-- How an address is normalized, if it is one.
variable (emailStr : String → Option String)

def RegisterInput.validate (lower : String → String) (body : RegisterInput) :
    Option RegisterInput := do
  let email ← emailStr body.email
  if HasLength 8 256 body.password ∧ HasLength 0 100 body.displayName
      ∧ ∀ token ∈ body.invitationToken, HasLength 0 200 token then
    some { body with email := lower email }
  else none

structure ProfileUpdate where
  displayName : String
deriving DecidableEq, Repr

def ProfileUpdate.validate (body : ProfileUpdate) : Option ProfileUpdate :=
  if HasLength 1 100 body.displayName ∧ strip body.displayName ≠ "" then
    some ⟨strip body.displayName⟩
  else none

structure ProfileRead where
  id : String
  email : String
  displayName : String
  avatarUrl : Option String
  onboardingStatus : OnboardingStatus
  requiredProfileFields : List String
  missingProfileFields : List String
  createdAt : Time
  joinedWorkspace : Bool
deriving DecidableEq, Repr

def User.requiredProfileFields (_user : User) : List String := ["display_name"]

def User.missingProfileFields (user : User) : List String :=
  if strip user.displayName ≠ "" then [] else ["display_name"]

def ProfileRead.of (view : ProfileView) : ProfileRead where
  id := view.user.id
  email := view.user.email
  displayName := view.user.displayName
  avatarUrl := view.user.avatarUrl
  onboardingStatus := view.user.onboardingStatus
  requiredProfileFields := view.user.requiredProfileFields
  missingProfileFields := view.user.missingProfileFields
  createdAt := view.user.createdAt
  joinedWorkspace := view.joinedWorkspace

/-! ### Workspaces -/

structure WorkspaceInput where
  name : String
  slug : String
deriving DecidableEq, Repr

/-- Whether a text matches `^[a-z0-9][a-z0-9-]*[a-z0-9]$`. -/
def matchesSlug (slug : List Char) : Bool :=
  2 ≤ slug.length && slug.head?.any isSlugLetter && slug.getLast?.any isSlugLetter &&
  slug.all (fun c => isSlugLetter c || c == '-')

def WorkspaceInput.validate (body : WorkspaceInput) : Option WorkspaceInput :=
  if HasLength 1 100 body.name ∧ HasLength 3 50 body.slug ∧ matchesSlug body.slug.toList = true
      ∧ body.slug ∉ reservedSlugs ∧ strip body.name ≠ "" then
    some ⟨strip body.name, body.slug⟩
  else none

structure WorkspaceRead where
  id : String
  name : String
  slug : String
  ownerId : String
  logoUrl : Option String
  roleId : String
  permissions : List String
deriving DecidableEq, Repr

def WorkspaceRead.of (view : WorkspaceView) : WorkspaceRead where
  id := view.workspace.id
  name := view.workspace.name
  slug := view.workspace.slug
  ownerId := view.workspace.ownerId
  logoUrl := view.workspace.logoUrl
  roleId := view.roleId
  permissions := view.permissions

structure RoleInput where
  name : String
deriving DecidableEq, Repr

/-- Whether a text matches `^[a-z][a-z0-9 -]*$`. -/
def matchesRole : List Char → Bool
  | [] => false
  | c :: cs =>
      ('a' ≤ c && c ≤ 'z') && cs.all fun c => isSlugLetter c || c == ' ' || c == '-'

def RoleInput.validate (body : RoleInput) : Option RoleInput :=
  if HasLength 2 50 body.name ∧ matchesRole body.name.toList = true then some body else none

structure RoleRead where
  id : String
  name : String
  isSystemRole : Bool
  isProtected : Bool
  permissions : List String
  memberCount : ℕ
deriving DecidableEq, Repr

def RoleRead.of (view : RoleView) : RoleRead where
  id := view.role.id
  name := view.role.name
  isSystemRole := view.role.isSystem
  isProtected := view.role.isProtected
  permissions := view.permissions
  memberCount := view.memberCount

structure PermissionsInput where
  permissions : List String
deriving DecidableEq, Repr

def PermissionsInput.validate (body : PermissionsInput) : Option PermissionsInput :=
  if body.permissions.length ≤ 100 then some body else none

structure MemberRead extends ProfileRead where
  roleId : String
  roleName : String
  joinedAt : Time
deriving DecidableEq, Repr

def MemberRead.ofMember (view : MemberView) : MemberRead :=
  { ProfileRead.of ⟨view.user, true⟩ with
    roleId := view.member.roleId
    roleName := view.roleName
    joinedAt := view.member.joinedAt }

structure MemberRoleInput where
  roleId : String
deriving DecidableEq, Repr

structure TransferInput where
  userId : String
deriving DecidableEq, Repr

structure InvitationInput where
  email : String
  roleId : String
deriving DecidableEq, Repr

def InvitationInput.validate (body : InvitationInput) : Option InvitationInput := do
  let email ← emailStr body.email
  return { body with email := email }

structure InvitationRead where
  id : String
  email : String
  roleId : String
  status : CurrentStatus
  expiresAt : Time
  avatarUrl : Option String
  displayName : Option String
deriving DecidableEq, Repr

/-- An invitation as it stands at the time `now`. -/
def InvitationRead.of (now : Time) (view : InvitationView) : InvitationRead where
  id := view.invitation.id
  email := view.invitation.email
  roleId := view.invitation.roleId
  status := view.invitation.currentStatus now
  expiresAt := view.invitation.expiresAt
  avatarUrl := view.acceptedBy.bind User.avatarUrl
  displayName := view.acceptedBy.map User.displayName

structure InvitationCreated extends InvitationRead where
  invitationUrl : String
deriving DecidableEq, Repr

def InvitationCreated.created (now : Time) (created : CreatedInvitation) : InvitationCreated :=
  { InvitationRead.of now created.view with invitationUrl := created.url }

structure InvitationPreviewRead where
  workspaceSlug : String
  workspaceName : String
  email : String
  roleName : String
  expiresAt : Time
deriving DecidableEq, Repr

def InvitationPreviewRead.of (preview : InvitationPreview) : InvitationPreviewRead where
  workspaceSlug := preview.workspace.slug
  workspaceName := preview.workspace.name
  email := preview.invitation.email
  roleName := preview.roleName
  expiresAt := preview.invitation.expiresAt

structure AcceptInvitationInput where
  token : String
deriving DecidableEq, Repr

def AcceptInvitationInput.validate (body : AcceptInvitationInput) : Option AcceptInvitationInput :=
  if HasLength 0 200 body.token then some body else none

end MvpApi
