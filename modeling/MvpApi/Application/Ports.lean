import MvpApi.Library.Program
import MvpApi.Application.Accounts
import MvpApi.Application.Products

/-!
# What the use cases ask for

A use case is a program that asks for services: queries and transactions of the database, the
storage of media, the publisher of changes, the mailer and the user pool. `Request` lists what
it can ask; the requests to the storage are a parameter, since a storage is itself a program
that asks a bucket.

`transaction` runs a body and commits, and reruns it when the database reports a lost race. A
query outside a transaction sees the rows as they are committed when it runs.
-/

set_option autoImplicit false

namespace MvpApi

open Program

/-- Tells clients that a product changed. -/
structure ChangeEvent where
  action : String
  id : String
  ownerId : String
  time : Time
deriving DecidableEq, Repr

/-- What a use case can ask for, if `μ` are the requests to the storage of media. -/
inductive Request (μ : Type → Type) : Type → Type 1
  /-- Queries outside a transaction. -/
  | read {α : Type} (query : Tx α) : Request μ α
  /-- One attempt to run the body of a transaction and to commit it. -/
  | attempt {α : Type} (body : Tx α) : Request μ α
  | media {α : Type} (request : μ α) : Request μ α
  | now : Request μ Time
  | publish (event : ChangeEvent) (recipients : List String) : Request μ Unit
  | sendInvitation (email workspaceName url : String) : Request μ Unit
  | createAccount (email password : String) : Request μ String
  | emailOf (accessToken : String) : Request μ (String × String)
  | deleteAccount (sub : String) : Request μ Unit

/-- Use cases that return a value of `α`, or fail. -/
abbrev Service (μ : Type → Type) := Program (Request μ) Failure

variable {μ : Type → Type} {α : Type}

/-- Run queries outside a transaction. -/
def read (query : Tx α) : Service μ α := perform (.read query)

/-! ### Transactions -/

namespace UnitOfWork

def attempts : ℕ := 3

def serializationFailure : String := "40001"

/-- Whether the database reports a lost race: by the SQLSTATE of the error of the driver, or of
its cause where that has none. -/
def lostRace (sqlstate cause : Option String) : Bool :=
  ((sqlstate.filter (· ≠ "")).or cause) = some serializationFailure

/-- Run the body of a transaction and commit, in as many attempts as are left. -/
def transactionIn (body : Tx α) : ℕ → Service μ α
  | 0 => .fail (.other "unreachable")
  | left + 1 => do
      match ← (perform (.attempt body)).outcome with
      | .ok a => return a
      | .error .integrity => .fail .duplicate
      | .error (.database sqlstate cause) =>
          if lostRace sqlstate cause = false then .fail (.database sqlstate cause)
          else if left = 0 then .fail .concurrencyConflict
          else transactionIn body left
      | .error e => .fail e

end UnitOfWork

/-- Run the body of a transaction and commit; it is rerun when the database reports a lost
race, and a unique violation surfaces as a `DuplicateError`. -/
def transaction (body : Tx α) : Service μ α := UnitOfWork.transactionIn body UnitOfWork.attempts

/-! ### Media -/

/-- The storage of media. -/
structure MediaStorage (μ : Type → Type) where
  /-- The size of a pending upload; refuses one that is missing or too large. -/
  pendingSize : String → Service μ ℕ
  /-- Validate and re-encode a pending upload with a thumbnail, then drop it. -/
  storeImage : String → Service μ StoredImage
  /-- Validate a pending upload, crop it to a square and return the stored key. -/
  storeSquare : String → Service μ String
  urlFor : String → String
  delete : String → Service μ Unit

/-- What is asked of a storage of which only the interface is known. -/
inductive MediaRequest : Type → Type
  | pendingSize (uploadKey : String) : MediaRequest ℕ
  | storeImage (uploadKey : String) : MediaRequest StoredImage
  | storeSquare (uploadKey : String) : MediaRequest String
  | delete (key : String) : MediaRequest Unit

/-- A storage of which only the interface is known. -/
def MediaStorage.port (urlFor : String → String) : MediaStorage MediaRequest where
  pendingSize uploadKey := perform (.media (.pendingSize uploadKey))
  storeImage uploadKey := perform (.media (.storeImage uploadKey))
  storeSquare uploadKey := perform (.media (.storeSquare uploadKey))
  urlFor := urlFor
  delete key := perform (.media (.delete key))

/-- Store the upload of a key as a square, if there is one, and return the key it is stored at. -/
def MediaStorage.storeSome (media : MediaStorage μ) (uploadKey : Option String) :
    Service μ (Option String) :=
  match uploadKey.filter (· ≠ "") with
  | some uploadKey => do return some (← media.storeSquare uploadKey)
  | none => return none

/-- Delete the files of a list, one after another. -/
def MediaStorage.deleteAll (media : MediaStorage μ) : List String → Service μ Unit
  | [] => pure ()
  | key :: keys => do
      media.delete key
      media.deleteAll keys

/-- Delete the file of a key, if there is one. -/
def MediaStorage.deleteSome (media : MediaStorage μ) (key : Option String) : Service μ Unit :=
  match key.filter (· ≠ "") with
  | some key => media.delete key
  | none => pure ()

end MvpApi
