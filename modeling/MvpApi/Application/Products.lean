import MvpApi.Application.Workspaces
import MvpApi.Database.Products

/-!
# The transactions on products

The bodies of the transactions of the use cases on products and their images. The checks
of a quota lock the row of the workspace; whether the account may act there was checked
before, by the route.
-/

set_option autoImplicit false

namespace MvpApi

open Tx

/-- An image in storage, with its thumbnail. -/
structure StoredImage where
  key : String
  thumbKey : String
  contentType : String
  sizeBytes : ℕ
deriving DecidableEq, Repr

namespace ProductTx

/-- Quota checks of one workspace run one at a time: they lock its row. -/
def lockQuota (workspaceId : String) : Tx Unit := do
  let _ ← Workspaces.lock workspaceId
  pure ()

def get (workspaceId productId : String) : Tx Product := do
  check (found (← Products.get workspaceId productId) productNotFound)

def create (quotas : ProductQuotas) (workspaceId name : String) (sku : Option String)
    (price : Price) (status : ProductStatus) (description : Option String) : Tx Product := do
  lockQuota workspaceId
  check (quotas.ensureRoomForProduct (← Products.count workspaceId))
  let created ← now
  let product ← check
    (Product.create (← newId) workspaceId name sku price status description created)
  Products.add product
  return product

/-- Apply a partial update; `updatedAt` only moves when a value actually changes. -/
def update (workspaceId productId : String) (changes : ProductChanges)
    (ifMatch : Option Time) : Tx Product := do
  let product ← get workspaceId productId
  check (product.ensureUnchangedSince ifMatch)
  let product ←
    if product.apply changes = product then pure product
    else do
      check (Product.checkInvariants (product.apply changes).toProductRow)
      let now ← now
      pure { product.apply changes with updatedAt := now }
  Products.save product
  return product

def delete (workspaceId productId : String) : Tx Product := do
  let product ← get workspaceId productId
  Products.delete product
  return product

/-- Add an image that is in storage to a product. -/
def attach (quotas : ProductQuotas) (workspaceId productId : String) (stored : StoredImage)
    (uploadKey : String) : Tx ProductImage := do
  lockQuota workspaceId
  let product ← get workspaceId productId
  check product.ensureRoomForImage
  let used ← Products.storageBytes workspaceId
  check (quotas.ensureRoomForBytes used stored.sizeBytes)
  let id ← newId
  let (_, image) ← check (product.addImage id stored.key (some stored.thumbKey) (some uploadKey)
    stored.contentType stored.sizeBytes (← now))
  Products.addImage image
  return image

def removeImage (workspaceId productId imageId : String) : Tx ProductImage := do
  let product ← get workspaceId productId
  let (product, image) ← check (product.removeImage imageId)
  Products.saveImages product
  return image

def reorderImages (workspaceId productId : String) (imageIds : List String) : Tx Product := do
  let product ← get workspaceId productId
  let product ← check (product.reorderImages imageIds)
  Products.saveImages product
  return product

end ProductTx

end MvpApi
