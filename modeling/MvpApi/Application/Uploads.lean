import MvpApi.Application.Services
import MvpApi.Application.Storage

/-!
# Requests for uploads, and queries on products

A client that wants to upload an image asks for a ticket: the fields of a form that the bucket
accepts for one new object, of one type and of a limited size, for some minutes. Nothing is
stored until the client has posted the form, and nothing changes until the upload is confirmed.
What the library of the bucket makes of a policy is a parameter.

The queries on products that run outside a transaction are here as well.
-/

set_option autoImplicit false

namespace MvpApi

open Program

/-! ### Tickets -/

/-- What the bucket requires of a form, and for how many seconds it takes it. -/
structure PostPolicy where
  bucket : String
  key : String
  contentType : String
  least : ℕ
  most : ℕ
  expiresIn : ℕ
deriving DecidableEq, Repr

structure UploadTicket where
  url : String
  fields : List (String × String)
  key : String
  maxBytes : ℕ
  expiresIn : ℕ
deriving DecidableEq, Repr

/-- How forms are signed for a bucket. -/
structure PostSigner where
  bucket : String
  generatePresignedPost : PostPolicy → String × List (String × String)

def presignExpiresSeconds : ℕ := 600

def productImageTypes : List String := ["image/jpeg", "image/png", "image/webp", "image/gif"]

/-- The types of avatars and logos. -/
def squareImageTypes : List String := ["image/jpeg", "image/png", "image/webp"]

/-- The text without `p`, if it begins with it. -/
def removeprefix (s p : String) : String :=
  if startswith s p then String.ofList (s.toList.drop p.toList.length) else s

namespace S3MediaStorage

variable (storage : S3MediaStorage) (signer : PostSigner)

/-- The policy of an upload to the object `key`. -/
def policy (key contentType : String) : PostPolicy :=
  ⟨signer.bucket, key, contentType, 1, storage.maxBytes, presignExpiresSeconds⟩

def unsupportedType (allowed : List String) : String :=
  "Unsupported image type; use one of " ++ ", ".intercalate (allowed.insertionSort (· ≤ ·))

/-- A form for the upload of one new object. -/
def presign (contentType : String) (allowed : List String) :
    Service BucketRequest UploadTicket := do
  ofExcept (if contentType ∈ allowed then .ok ()
    else .error (.domain (.unsupportedMediaType (unsupportedType allowed))))
  let key := uploadPrefix ++ (← perform (.media .uuid4))
  let post := signer.generatePresignedPost (storage.policy signer key contentType)
  return ⟨post.1, post.2, removeprefix key uploadPrefix, storage.maxBytes, presignExpiresSeconds⟩

end S3MediaStorage

section Requests

variable (storage : S3MediaStorage) (signer : PostSigner)

/-- A ticket for one more image of the product. -/
def ProductService.requestImageUpload (workspaceId productId contentType : String) :
    Service BucketRequest UploadTicket := do
  let known ← read (Products.exists? workspaceId productId)
  ofExcept (if known then .ok () else .error (.domain (.notFound productNotFound)))
  let count ← read (Products.countImages productId)
  ofExcept ((ensureRoomForImageCount count).mapError .domain)
  storage.presign signer contentType productImageTypes

/-- A ticket for a new logo. -/
def WorkspaceService.requestLogoUpload (workspaceId userId contentType : String) :
    Service BucketRequest UploadTicket := do
  read (require userId "workspace.update" workspaceId)
  storage.presign signer contentType squareImageTypes

/-- A ticket for a new avatar. -/
def AccountService.requestAvatarUpload (userId contentType : String) :
    Service BucketRequest UploadTicket := do
  read (require userId "profile.update" userId)
  storage.presign signer contentType squareImageTypes

end Requests

/-! ### Queries on products -/

namespace ProductService

variable {μ : Type → Type}

/-- What a list asks for. -/
def filter (search : Option String) (status : Option ProductStatus) (orderBy : Option String) :
    Except DomainError ProductFilter := do
  let (field, descending) ← parseOrder orderBy
  return ⟨search.filter (· ≠ ""), status, field, descending⟩

def page (workspaceId : String) (query : ProductFilter) (page size : ℕ) :
    Service μ (List Product × ℕ) :=
  read (Products.page workspaceId query page size)

def after (codec : CursorCodec) (workspaceId : String) (query : ProductFilter)
    (cursor : Option String) (size : ℕ) : Service μ (List Product × Option String) :=
  read (Products.after codec workspaceId query cursor size)

def get (workspaceId productId : String) : Service μ Product :=
  read (ProductTx.get workspaceId productId)

end ProductService

end MvpApi
