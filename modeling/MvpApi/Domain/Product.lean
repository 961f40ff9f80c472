import MvpApi.Domain.Errors
import Mathlib.Data.List.Sort
import Mathlib.Data.List.Dedup

/-!
# Products

The product aggregate: a catalog entry of a workspace with up to `maxImagesPerProduct`
ordered images. The position of an image is stored with it, and every change of the list
of images numbers the images again.
-/

set_option autoImplicit false

namespace MvpApi

def maxImagesPerProduct : ℕ := 10

def productNotFound : String := "Product not found"
def imageNotFound : String := "Image not found"

/-- The fields a list can be ordered by; `-field` is descending. -/
def sortableFields : List String := ["created_at", "name", "price", "status"]
def defaultOrder : String := "-created_at"

inductive ProductStatus where
  | active
  | draft
  | archived
deriving DecidableEq, Repr

/-- A price in hundredths: the column has two decimals. -/
abbrev Price := ℤ

/-- A partial update: the fields the client sent. -/
structure ProductChanges where
  name : Option String
  sku : Option (Option String)
  price : Option Price
  status : Option ProductStatus
  description : Option (Option String)
deriving DecidableEq, Repr

/-! ### Limits -/

/-- What one workspace may hold; the limits come from configuration. -/
structure ProductQuotas where
  maxProducts : ℕ
  maxStorageBytes : ℕ
deriving DecidableEq, Repr

/-- A quotient rounded to the nearest integer, and to the even one of two as near. -/
def roundHalfEven (a b : ℕ) : ℕ :=
  if 2 * (a % b) < b ∨ (2 * (a % b) = b ∧ a / b % 2 = 0) then a / b else a / b + 1

/-- A number as a float, which has 53 binary digits. -/
def toFloat (n : ℕ) : ℕ :=
  let scale := 2 ^ (n.log2 - 52)
  roundHalfEven n scale * scale

/-- A number of tenths, without a fraction that is zero. -/
def showTenths (tenths : ℕ) : String :=
  if tenths % 10 = 0 then toString (tenths / 10)
  else toString (tenths / 10) ++ "." ++ toString (tenths % 10)

/-- A number of six digits as a fraction after its first one, without zeros at the end. -/
def showMantissa (digits : ℕ) : String :=
  let fraction := (toString (digits % 10 ^ 5 + 10 ^ 5)).toList.drop 1
  let shown := (fraction.reverse.dropWhile (· = '0')).reverse
  toString (digits / 10 ^ 5) ++ (if shown = [] then "" else "." ++ String.ofList shown)

/-- A number of tenths with six significant digits, and with an exponent from a million on: the
format `g`. -/
def showGeneral (tenths : ℕ) : String :=
  let length := (toString tenths).toList.length
  if length ≤ 6 then showTenths tenths
  else
    let rounded := roundHalfEven tenths (10 ^ (length - 6))
    let (digits, exponent) :=
      if rounded = 10 ^ 6 then (10 ^ 5, length - 1) else (rounded, length - 2)
    if exponent < 6 then toString digits
    else showMantissa digits ++ "e+" ++ (if exponent < 10 then "0" else "") ++ toString exponent

/-- A size in the largest binary unit it reaches, to one decimal. -/
def readableSize (size : ℕ) : String :=
  let inUnits (factor : ℕ) := showGeneral (roundHalfEven (toFloat size * 10) factor)
  if 1024 ^ 3 ≤ size then inUnits (1024 ^ 3) ++ " GB"
  else if 1024 ^ 2 ≤ size then inUnits (1024 ^ 2) ++ " MB"
  else if 1024 ≤ size then inUnits 1024 ++ " KB"
  else if size = 1 then "1 byte"
  else toString size ++ " bytes"

namespace ProductQuotas

def ensureRoomForProduct (quotas : ProductQuotas) (owned : ℕ) : Except DomainError Unit :=
  if quotas.maxProducts ≤ owned then
    .error (.conflict ("This workspace has reached its limit of " ++ toString quotas.maxProducts
      ++ " " ++ (if quotas.maxProducts = 1 then "product" else "products")))
  else .ok ()

def ensureRoomForBytes (quotas : ProductQuotas) (used incoming : ℕ) : Except DomainError Unit :=
  if quotas.maxStorageBytes < used + incoming then
    .error (.conflict ("This workspace has reached its storage limit of "
      ++ readableSize quotas.maxStorageBytes))
  else .ok ()

end ProductQuotas

def ensureRoomForImageCount (imageCount : ℕ) : Except DomainError Unit :=
  if maxImagesPerProduct ≤ imageCount then
    .error (.conflict ("A product can have at most " ++ toString maxImagesPerProduct ++ " images"))
  else .ok ()

/-- The field and the direction of an `order_by` value. -/
def parseOrder (orderBy : Option String) : Except DomainError (String × Bool) :=
  let value := (orderBy.filter (· ≠ "")).getD defaultOrder
  let descending := startswith value "-"
  let name := if descending then String.ofList (value.toList.drop 1) else value
  if name ∈ sortableFields then .ok (name, descending)
  else .error (.invalid
    "order_by must be one of created_at, name, price, status, optionally prefixed with -")

/-! ### Products and their images -/

/-- An image of a product. -/
structure ProductImage where
  id : String
  productId : String
  workspaceId : String
  key : String
  thumbKey : Option String
  uploadKey : Option String
  contentType : String
  sizeBytes : ℕ
  position : ℕ
  createdAt : Time
deriving DecidableEq, Repr

/-- The storage keys of an image: its own and its thumbnail's, where they are not empty. -/
def ProductImage.storageKeys (image : ProductImage) : List String :=
  (image.key :: image.thumbKey.toList).filter (· ≠ "")

/-- What the table of products stores of a product. -/
structure ProductRow where
  id : String
  workspaceId : String
  name : String
  sku : Option String
  price : Price
  status : ProductStatus
  description : Option String
  createdAt : Time
  updatedAt : Time
deriving DecidableEq, Repr

/-- A product with its images, in their order. -/
structure Product extends ProductRow where
  images : List ProductImage
deriving DecidableEq, Repr

namespace Product

def checkInvariants (product : ProductRow) : Except DomainError Unit :=
  if product.name = "" then .error (.invalid "A product needs a name")
  else if product.price < 0 then .error (.invalid "A price cannot be negative")
  else .ok ()

def create (id workspaceId name : String) (sku : Option String) (price : Price)
    (status : ProductStatus) (description : Option String) (created : Time) :
    Except DomainError Product := do
  let row : ProductRow := ⟨id, workspaceId, name, sku, price, status, description, created, created⟩
  checkInvariants row
  return { row with images := [] }

def storageKeys (product : Product) : List String :=
  product.images.flatMap ProductImage.storageKeys

/-- `updatedAt` is the version a client sends back with `If-Match`. -/
def ensureUnchangedSince (product : Product) (version : Option Time) : Except DomainError Unit :=
  match version with
  | none => .ok ()
  | some version =>
      if version ≠ product.updatedAt then
        .error (.preconditionFailed "Product was modified since you last loaded it")
      else .ok ()

/-- The product with the fields of a partial update set. -/
def apply (product : Product) (changes : ProductChanges) : Product :=
  { product with
    name := changes.name.getD product.name
    sku := changes.sku.getD product.sku
    price := changes.price.getD product.price
    status := changes.status.getD product.status
    description := changes.description.getD product.description }

def ensureRoomForImage (product : Product) : Except DomainError Unit :=
  ensureRoomForImageCount product.images.length

/-- Number the images from 0 on, in their order. -/
def renumber (images : List ProductImage) : List ProductImage :=
  images.mapIdx fun position image => { image with position := position }

def addImage (product : Product) (id key : String) (thumbKey uploadKey : Option String)
    (contentType : String) (sizeBytes : ℕ) (now : Time) :
    Except DomainError (Product × ProductImage) := do
  product.ensureRoomForImage
  let image : ProductImage := {
    id := id, productId := product.id, workspaceId := product.workspaceId, key := key
    thumbKey := thumbKey, uploadKey := uploadKey, contentType := contentType
    sizeBytes := sizeBytes, position := product.images.length, createdAt := now }
  return ({ product with images := product.images ++ [image] }, image)

/-- Drop one image and close the gap, so positions stay 0..n-1. -/
def removeImage (product : Product) (imageId : String) :
    Except DomainError (Product × ProductImage) := do
  let image ← found (product.images.find? (·.id = imageId)) imageNotFound
  return ({ product with images := renumber (product.images.erase image) }, image)

/-- The image of an id in the dictionary of the images by id, in which the last one of an id
stands. -/
def byId (product : Product) (imageId : String) : Option ProductImage :=
  product.images.reverse.find? (·.id = imageId)

/-- Set the display order; the first image is the cover. -/
def reorderImages (product : Product) (imageIds : List String) : Except DomainError Product :=
  if imageIds.insertionSort (· ≤ ·)
      ≠ (product.images.map ProductImage.id).dedup.insertionSort (· ≤ ·) then
    .error (.invalid "image_ids must list every image of this product exactly once")
  else
    .ok { product with images := renumber (imageIds.filterMap product.byId) }

@[simp]
theorem checkInvariants_eq_ok {row : ProductRow} {u : Unit} :
  checkInvariants row = .ok u ↔ row.name ≠ "" ∧ 0 ≤ row.price
  := by
  unfold checkInvariants
  split
  · next h => simp [h]
  · next h =>
      split
      · next hp =>
          simp only [reduceCtorEq, false_iff, not_and, not_le]
          intro _
          exact hp
      · next hp => simp [h, not_lt.mp hp]

/-- Numbering the images again changes nothing but their positions. -/
theorem mem_renumber {images : List ProductImage} {image : ProductImage}
    (h : image ∈ renumber images) :
  ∃ old ∈ images, image = { old with position := image.position }
  := by
  obtain ⟨i, hi, rfl⟩ := List.mem_mapIdx.mp h
  exact ⟨images[i], List.getElem_mem hi, rfl⟩

section Ids

variable {product : Product} (distinct : (product.images.map ProductImage.id).Nodup)

include distinct

/-- The dictionary of the images by id has every image. -/
theorem byId_of_mem {image : ProductImage} (h : image ∈ product.images) :
  product.byId image.id = some image
  := by
  cases hfound : product.byId image.id with
  | none =>
      have hnone := List.find?_eq_none.mp hfound image (List.mem_reverse.mpr h)
      simp at hnone
  | some other =>
      have hother := List.mem_reverse.mp (List.mem_of_find?_eq_some hfound)
      have hid : other.id = image.id := by simpa using List.find?_some hfound
      rw [List.inj_on_of_nodup_map distinct hother h hid]

/-- The ids of some images find them. -/
theorem filterMap_byId {images : List ProductImage}
    (h : ∀ image ∈ images, image ∈ product.images) :
  (images.map ProductImage.id).filterMap product.byId = images
  := by
  induction images with
  | nil => rfl
  | cons image images ih =>
      have first := byId_of_mem distinct (h image List.mem_cons_self)
      rw [List.map_cons, List.filterMap_cons_some first,
        ih fun other hother => h other (List.mem_cons_of_mem image hother)]

/-- An order of the images lists their ids, each once. -/
theorem sorted_eq_iff {imageIds : List String} :
  imageIds.insertionSort (· ≤ ·)
      = (product.images.map ProductImage.id).dedup.insertionSort (· ≤ ·)
    ↔ imageIds.Perm (product.images.map ProductImage.id)
  := by
  rw [distinct.dedup]
  constructor
  · intro same
    have perm := List.perm_insertionSort (· ≤ ·) imageIds
    rw [same] at perm
    exact perm.symm.trans (List.perm_insertionSort _ _)
  · intro perm
    have sorted := (List.perm_insertionSort (· ≤ ·) imageIds).trans
      (perm.trans (List.perm_insertionSort (· ≤ ·) _).symm)
    exact sorted.eq_of_pairwise (fun _ _ _ _ => le_antisymm) (List.pairwise_insertionSort _ _)
      (List.pairwise_insertionSort _ _)

end Ids

end Product

end MvpApi
