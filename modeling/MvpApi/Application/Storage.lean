import MvpApi.Application.Ports

/-!
# The media bucket

The storage of media in a bucket: clients upload under `uploads/`, and confirming an upload
validates and re-encodes it into `media/`. What the image library makes of the bytes of an
upload is a parameter, and so is the test of the characters of an upload key.
-/

set_option autoImplicit false

namespace MvpApi

open Program

/-- What is asked of the bucket, and the random names of new objects. -/
inductive BucketRequest : Type → Type
  /-- The length of an object. -/
  | headObject (key : String) : BucketRequest ℕ
  | getObject (key : String) : BucketRequest (List UInt8)
  | putObject (key : String) (body : List UInt8) : BucketRequest Unit
  | deleteObject (key : String) : BucketRequest Unit
  | uuid4 : BucketRequest String

def uploadPrefix : String := "uploads/"
def mediaPrefix : String := "media/"
def uploadNotFound : String :=
  "Upload not found: it was never uploaded, expired or was already used"
def missingObjectCodes : List String := ["404", "NoSuchKey", "NotFound"]

/-- What the storage of media works with. -/
structure S3MediaStorage where
  baseUrl : String
  maxBytes : ℕ
  isalnum : String → Bool
  /-- Decode an upload, and encode it in full and as a thumbnail. -/
  renderImage : List UInt8 → Except Failure (List UInt8 × List UInt8)
  /-- Decode an upload, and encode it as a square. -/
  renderSquare : List UInt8 → Except Failure (List UInt8)

namespace S3MediaStorage

variable (storage : S3MediaStorage)

/-- A missing object is the client's 404; what else the bucket refuses stays an error. -/
def raiseIfMissing (e : Failure) : Failure :=
  match e with
  | .client code => if code ∈ missingObjectCodes then .domain (.notFound uploadNotFound) else e
  | e => e

/-- Deleting is best effort, as long as it is the bucket that refuses. -/
def delete (key : String) : Service BucketRequest Unit := do
  match ← (perform (.media (.deleteObject key))).outcome with
  | .ok _ => return ()
  | .error (.client _) => return ()
  | .error e => .fail e

/-- The key of a pending upload. -/
def pending (uploadKey : String) : Except Failure String :=
  if storage.isalnum uploadKey then .ok (uploadPrefix ++ uploadKey)
  else .error (.domain (.notFound uploadNotFound))

def pendingSize (uploadKey : String) : Service BucketRequest ℕ := do
  let key ← ofExcept (storage.pending uploadKey)
  match ← (perform (.media (.headObject key))).outcome with
  | .error e => .fail (raiseIfMissing e)
  | .ok size =>
      if storage.maxBytes < size then do
        delete key
        .fail (.domain (.contentTooLarge "The upload is larger than allowed"))
      else return size

def readPending (uploadKey : String) : Service BucketRequest (List UInt8) := do
  let _ ← storage.pendingSize uploadKey
  let key ← ofExcept (storage.pending uploadKey)
  match ← (perform (.media (.getObject key))).outcome with
  | .error e => .fail (raiseIfMissing e)
  | .ok body => return body

def put (key : String) (body : List UInt8) : Service BucketRequest Unit :=
  perform (.media (.putObject key body))

/-- Drop a pending upload. -/
def drop (uploadKey : String) : Service BucketRequest Unit := do
  let key ← ofExcept (storage.pending uploadKey)
  delete key

def storeImage (uploadKey : String) : Service BucketRequest StoredImage := do
  let original ← storage.readPending uploadKey
  let (full, thumb) ← ofExcept (storage.renderImage original)
  let stem := mediaPrefix ++ (← perform (.media .uuid4))
  let key := stem ++ ".webp"
  let thumbKey := stem ++ "_thumb.webp"
  put key full
  put thumbKey thumb
  storage.drop uploadKey
  return ⟨key, thumbKey, "image/webp", full.length⟩

def storeSquare (uploadKey : String) : Service BucketRequest String := do
  let original ← storage.readPending uploadKey
  let square ← ofExcept (storage.renderSquare original)
  let key := mediaPrefix ++ (← perform (.media .uuid4)) ++ ".webp"
  put key square
  storage.drop uploadKey
  return key

/-- The bucket as a storage of media. -/
def media : MediaStorage BucketRequest where
  pendingSize := storage.pendingSize
  storeImage := storage.storeImage
  storeSquare := storage.storeSquare
  urlFor key := storage.baseUrl ++ "/" ++ key
  delete := delete

end S3MediaStorage

end MvpApi
