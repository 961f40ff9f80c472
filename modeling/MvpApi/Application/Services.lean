import MvpApi.Application.Ports

/-!
# The use cases

The use cases of the services, as programs that ask for services: which transactions they run,
and what they do before and after. The slow work on images runs outside the transactions; it
is undone if the change fails, and files that are no longer needed are deleted last.
-/

set_option autoImplicit false

namespace MvpApi

open Program

variable {μ : Type → Type}

/-! ### Products -/

/-- What the use cases on products work with. -/
structure ProductService (μ : Type → Type) where
  media : MediaStorage μ
  quotas : ProductQuotas

namespace ProductService

/-- Announce a change to the members of the workspace. -/
def notify (action productId workspaceId : String) : Service μ Unit := do
  let recipients ← read (Members.userIds workspaceId)
  let now ← perform .now
  perform (.publish ⟨action, productId, workspaceId, now⟩ recipients)

variable (service : ProductService μ)

/-- Delete the files of an image that was not attached. -/
def discard (stored : StoredImage) : Service μ Unit := do
  service.media.delete stored.key
  service.media.delete stored.thumbKey

def create (workspaceId name : String) (sku : Option String) (price : Price)
    (status : ProductStatus) (description : Option String) : Service μ Product := do
  let product ←
    transaction (ProductTx.create service.quotas workspaceId name sku price status description)
  notify "created" product.id workspaceId
  return product

def update (workspaceId productId : String) (changes : ProductChanges) (ifMatch : Option Time) :
    Service μ Product := do
  let product ← transaction (ProductTx.update workspaceId productId changes ifMatch)
  notify "updated" productId workspaceId
  return product

def delete (workspaceId productId : String) : Service μ Unit := do
  let product ← transaction (ProductTx.delete workspaceId productId)
  notify "deleted" productId workspaceId
  service.media.deleteAll product.storageKeys

/-- Insert the image of an upload; its files are discarded if that fails. If another call has
confirmed the same upload meanwhile, the image of that call is the answer. -/
def attach (workspaceId productId : String) (stored : StoredImage) (uploadKey : String) :
    Service μ ProductImage := do
  match ← (transaction
      (ProductTx.attach service.quotas workspaceId productId stored uploadKey)).outcome with
  | .ok image => do
      notify "updated" productId workspaceId
      return image
  | .error .duplicate => do
      service.discard stored
      match ← read (Products.imageByUploadKey productId uploadKey) with
      | some winner => return winner
      | none => .fail .duplicate
  | .error e => do
      service.discard stored
      .fail e

/-- Turn a pending upload into an image of the product. Confirming the same key again returns
the image it already produced. -/
def confirmImage (workspaceId productId uploadKey : String) : Service μ ProductImage := do
  let known ← read (Products.exists? workspaceId productId)
  ofExcept (if known then .ok () else .error (.domain (.notFound productNotFound)))
  match ← read (Products.imageByUploadKey productId uploadKey) with
  | some existing => return existing
  | none => do
      let size ← service.media.pendingSize uploadKey
      let used ← read (Products.storageBytes workspaceId)
      ofExcept ((service.quotas.ensureRoomForBytes used size).mapError .domain)
      let count ← read (Products.countImages productId)
      ofExcept ((ensureRoomForImageCount count).mapError .domain)
      let stored ← service.media.storeImage uploadKey
      service.attach workspaceId productId stored uploadKey

def removeImage (workspaceId productId imageId : String) : Service μ Unit := do
  let image ← transaction (ProductTx.removeImage workspaceId productId imageId)
  notify "updated" productId workspaceId
  service.media.deleteAll image.storageKeys

def reorderImages (workspaceId productId : String) (imageIds : List String) :
    Service μ Product := do
  let product ← transaction (ProductTx.reorderImages workspaceId productId imageIds)
  notify "updated" productId workspaceId
  return product

end ProductService

/-! ### Workspaces -/

/-- An invitation that was issued, with its link. -/
structure CreatedInvitation where
  view : InvitationView
  url : String
deriving DecidableEq, Repr

/-- What the use cases on workspaces work with. -/
structure WorkspaceService (μ : Type → Type) where
  media : MediaStorage μ
  webBaseUrl : String

/-- Report a unique violation as a conflict. -/
def duplicateAs {α : Type} (message : String) (x : Service μ α) : Service μ α := do
  match ← x.outcome with
  | .ok a => return a
  | .error .duplicate => .fail (.domain (.conflict message))
  | .error e => .fail e

namespace WorkspaceService

variable (service : WorkspaceService μ)

def create (name slug userId : String) : Service μ WorkspaceView :=
  duplicateAs slugTaken (transaction (WorkspaceTx.create name slug userId))

def update (workspaceId name slug userId : String) : Service μ WorkspaceView :=
  duplicateAs slugTaken (transaction (WorkspaceTx.update workspaceId name slug userId))

/-- Point the workspace at a freshly processed logo, or at none. The image work runs before the
transaction and is undone if the change fails. -/
def setLogo (workspaceId : String) (uploadKey : Option String) (userId : String) :
    Service μ WorkspaceView := do
  read (require userId "workspace.update" workspaceId)
  let newKey ← service.media.storeSome uploadKey
  let url := (newKey.filter (· ≠ "")).map service.media.urlFor
  match ← (transaction (WorkspaceTx.replaceLogo workspaceId newKey url userId)).outcome with
  | .ok (view, previous) => do
      service.media.deleteSome previous
      return view
  | .error e => do
      service.media.deleteSome newKey
      .fail e

def delete (workspaceId userId : String) : Service μ Unit :=
  transaction (WorkspaceTx.delete workspaceId userId)

def saveRole (workspaceId : String) (roleId : Option String) (name userId : String) :
    Service μ RoleView :=
  duplicateAs "A role already uses this name"
    (transaction (WorkspaceTx.saveRole workspaceId roleId name userId))

def deleteRole (workspaceId roleId userId : String) : Service μ Unit :=
  transaction (WorkspaceTx.deleteRole workspaceId roleId userId)

def setPermissions (workspaceId roleId : String) (permissions : List String) (userId : String) :
    Service μ Unit :=
  transaction (WorkspaceTx.setPermissions workspaceId roleId permissions userId)

def setMemberRole (workspaceId memberId roleId userId : String) : Service μ Unit :=
  transaction (WorkspaceTx.setMemberRole workspaceId memberId roleId userId)

def removeMember (workspaceId memberId userId : String) : Service μ Unit :=
  transaction (WorkspaceTx.removeMember workspaceId memberId userId)

def transfer (workspaceId targetId userId : String) : Service μ Unit :=
  transaction (WorkspaceTx.transfer workspaceId targetId userId)

/-- Invite an address. The invitation stands even if its mail cannot be sent: the answer has
its link. -/
def invite (workspaceId email roleId userId : String) : Service μ CreatedInvitation := do
  let (workspace, invitation, token) ←
    transaction (WorkspaceTx.issue workspaceId email roleId userId)
  let url := service.webBaseUrl ++ "/invite?workspace=" ++ workspace.slug ++ "&token=" ++ token
  let _ ← (perform (.sendInvitation invitation.email workspace.name url)).outcome
  return ⟨⟨invitation, none⟩, url⟩

def revokeInvitation (workspaceId invitationId userId : String) : Service μ Unit :=
  transaction (WorkspaceTx.revoke workspaceId invitationId userId)

def acceptInvitation (token userId : String) : Service μ WorkspaceView :=
  transaction (WorkspaceTx.accept token userId)

end WorkspaceService

/-! ### The purge -/

namespace WorkspacePurge

variable (media : MediaStorage μ)

/-- Delete the products of a workspace in batches, each with its files, until one is not full.
The number of batches is bounded by `rounds`. -/
def purgeProducts (workspaceId : String) : ℕ → Service μ Unit
  | 0 => .fail (.other "interrupted")
  | rounds + 1 => do
      let (deleted, keys) ←
        transaction (PurgeTx.deleteBatch workspaceId PurgeTx.productBatch)
      media.deleteAll keys
      if deleted < PurgeTx.productBatch then pure () else purgeProducts workspaceId rounds

/-- Remove a soft-deleted workspace for good. Each step commits on its own. -/
def purge (rounds : ℕ) (workspaceId : String) : Service μ Unit := do
  purgeProducts media workspaceId rounds
  let logoKey ← transaction (PurgeTx.purgeRows workspaceId)
  media.deleteSome logoKey

/-- Remove the workspaces of a list. -/
def purgeEach (rounds : ℕ) : List String → Service μ Unit
  | [] => pure ()
  | workspaceId :: workspaceIds => do
      purge media rounds workspaceId
      purgeEach rounds workspaceIds

/-- Remove all soft-deleted workspaces. -/
def purgeAll (rounds : ℕ) : Service μ ℕ := do
  let workspaceIds ← read (Workspaces.deletedIds none)
  purgeEach media rounds workspaceIds
  return workspaceIds.length

end WorkspacePurge

/-! ### Accounts -/

/-- What the use cases on accounts work with. -/
structure AccountService (μ : Type → Type) where
  media : MediaStorage μ
  lower : String → String

namespace AccountService

variable (service : AccountService μ)

/-- Create a confirmed account in the user pool and its profile row. The answer is the same
whether or not the email was taken. -/
def register (email password displayName : String) (invitationToken : Option String) :
    Service μ Unit := do
  match ← (perform (.createAccount (service.lower email) password)).outcome with
  | .error .emailTaken => return ()
  | .error (.passwordRejected message) => .fail (.domain (.invalid message))
  | .error e => .fail e
  | .ok sub =>
      transaction (AccountTx.register sub (service.lower email) displayName invitationToken)

/-- The email of an account, whose row is created on the first request of its subject. -/
def ensureAccount (sub accessToken : String) : Service μ String := do
  match ← read (Users.get sub) with
  | some user => return user.email
  | none => do
      let (tokenSub, email) ← perform (.emailOf accessToken)
      ofExcept (if tokenSub = sub then .ok ()
        else .error (.accountLookup "The user pool answered for a different subject"))
      transaction (AccountTx.ensureAccount sub email)
      match ← read (Users.get sub) with
      | some _ => return email
      | none => .fail (.domain (.conflict emailHeldByAnotherAccount))

def rename (userId displayName : String) : Service μ ProfileView := do
  let user ← transaction (AccountTx.rename userId displayName)
  read (AccountTx.view user)

/-- Point the profile at a freshly processed avatar, or at none. The image work runs before the
transaction and is undone if the change fails. -/
def setAvatar (userId : String) (uploadKey : Option String) : Service μ ProfileView := do
  read (require userId "profile.update" userId)
  let newKey ← service.media.storeSome uploadKey
  let url := (newKey.filter (· ≠ "")).map service.media.urlFor
  match ← (transaction (AccountTx.replaceAvatar userId newKey url)).outcome with
  | .ok (user, previous) => do
      service.media.deleteSome previous
      read (AccountTx.view user)
  | .error e => do
      service.media.deleteSome newKey
      .fail e

/-- Delete an account, after purging the workspaces that it has deleted and still owns. The
account in the user pool goes last, and if that fails the row is gone all the same. -/
def delete (rounds : ℕ) (userId : String) : Service μ Unit := do
  read (AccountTx.ensureDeletable userId)
  let workspaceIds ← read (Workspaces.deletedIds (some userId))
  WorkspacePurge.purgeEach service.media rounds workspaceIds
  let user ← transaction (AccountTx.delete userId)
  service.media.deleteSome user.avatarKey
  let _ ← (perform (.deleteAccount user.id)).outcome
  return ()

end AccountService

end MvpApi
