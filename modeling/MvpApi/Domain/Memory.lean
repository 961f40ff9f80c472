import MvpApi.Domain.Product
import MvpApi.Library.Exec
import Mathlib.Logic.Function.Basic

/-!
# Products in memory

In memory, a product has a list of references to its images. Its methods work step by step: an
image is dropped by comparing values, positions are set in place, and what was done before an
error stays done. As long as the images have different ids, the methods do to the product what
the functions on values say, and a method that raises has changed nothing.
-/

set_option autoImplicit false

namespace MvpApi

open Exec

/-- A product in memory: the references to its images, the objects they refer to, and the
reference of the next object. -/
structure Memory where
  row : ProductRow
  images : List ℕ
  object : ℕ → ProductImage
  next : ℕ

/-- A method of the product, which may raise. -/
abbrev Method := Exec Unit Memory Failure

namespace Memory

/-- The product as a value. -/
def product (memory : Memory) : Product :=
  { memory.row with images := memory.images.map memory.object }

/-! ### Methods -/

def ensureRoomForImage : Method Unit := do
  let images ← query Memory.images
  ensure (images.length < maxImagesPerProduct)
    (.domain (.conflict
      ("A product can have at most " ++ toString maxImagesPerProduct ++ " images")))

/-- Create an image. -/
def newImage (image : ProductImage) : Method ℕ := do
  let reference ← query Memory.next
  update fun memory => { memory with
    object := Function.update memory.object reference image, next := reference + 1 }
  return reference

def addImage (id key : String) (thumbKey uploadKey : Option String) (contentType : String)
    (sizeBytes : ℕ) (now : Time) : Method ℕ := do
  ensureRoomForImage
  let row ← query Memory.row
  let images ← query Memory.images
  let image ← newImage {
    id := id, productId := row.id, workspaceId := row.workspaceId, key := key
    thumbKey := thumbKey, uploadKey := uploadKey, contentType := contentType
    sizeBytes := sizeBytes, position := images.length, createdAt := now }
  update fun memory => { memory with images := memory.images ++ [image] }
  return image

/-- The memory after the position of an image has been set. -/
def place (memory : Memory) (image position : ℕ) : Memory :=
  let placed := { memory.object image with position := position }
  { memory with object := Function.update memory.object image placed }

/-- Set the positions of some images, counting from a number on. -/
def enumerate : ℕ → List ℕ → Method Unit
  | _, [] => pure ()
  | position, image :: images => do
      update fun memory => memory.place image position
      enumerate (position + 1) images

/-- Drop one image and close the gap, so positions stay 0..n-1. The image is looked up by its id,
and dropped from the list where the first one equal to it stands. -/
def removeImage (imageId : String) : Method ℕ := do
  let images ← query Memory.images
  let object ← query Memory.object
  match images.find? (fun image => (object image).id = imageId) with
  | none => raise (.domain (.notFound imageNotFound))
  | some image =>
      update fun memory => { memory with
        images := memory.images.eraseP fun other => memory.object other = memory.object image }
      let images ← query Memory.images
      enumerate 0 images
      return image

/-- The dictionary of the images by id, in which the last one of an id stands. -/
def byId (memory : Memory) (imageId : String) : Option ℕ :=
  memory.images.reverse.find? fun image => (memory.object image).id = imageId

/-- The keys of the dictionary. -/
def keys (memory : Memory) : List String :=
  (memory.images.map fun image => (memory.object image).id).dedup

/-- The images of some ids. An id that the dictionary does not have is a `KeyError`. -/
def lookUp (byId : String → Option ℕ) : List String → Method (List ℕ)
  | [] => pure []
  | imageId :: imageIds =>
      match byId imageId with
      | none => raise (.other imageId)
      | some image => (image :: ·) <$> lookUp byId imageIds

/-- Set the display order; the first image is the cover. -/
def reorderImages (imageIds : List String) : Method Unit := do
  let byId ← query Memory.byId
  let keys ← query keys
  ensure (imageIds.insertionSort (· ≤ ·) = keys.insertionSort (· ≤ ·))
    (.domain (.invalid "image_ids must list every image of this product exactly once"))
  let images ← lookUp byId imageIds
  update fun memory => { memory with images := images }
  let images ← query Memory.images
  enumerate 0 images

/-! ### What the methods do -/

/-- A product is in memory, and the next object has a reference of its own. -/
structure Holds (memory : Memory) (product : Product) : Prop where
  product : memory.product = product
  allocated : ∀ image ∈ memory.images, image < memory.next

/-- A method does to the product what a function says: it returns what stands for the result, and
raises without having changed anything where the result is an error. -/
def Follows {α β : Type} (method : Method α) (memory : Memory) (value : Memory → α → β) :
    Except DomainError (Product × β) → Prop
  | .ok (product, b) => ∃ a memory', Returns method () memory a memory'
      ∧ memory'.Holds product ∧ value memory' a = b
  | .error e => Raises method () memory (.domain e) memory

theorem place_object_self (memory : Memory) (image position : ℕ) :
  (memory.place image position).object image = { memory.object image with position := position }
  := Function.update_self _ _ _

theorem place_object_of_ne {memory : Memory} {image other position : ℕ} (h : other ≠ image) :
  (memory.place image position).object other = memory.object other
  := Function.update_of_ne h _ _

/-- Setting positions changes nothing but the positions of the images of the list. -/
theorem returns_enumerate (memory : Memory) (position : ℕ) (images : List ℕ) :
  ∃ object, Returns (enumerate position images) () memory () { memory with object := object }
    ∧ (∀ image ∉ images, object image = memory.object image)
    ∧ (images.Nodup → images.map object = (images.map memory.object).mapIdx
      fun i image => { image with position := position + i })
  := by
  induction images generalizing memory position with
  | nil => exact ⟨memory.object, rfl, fun _ _ => rfl, fun _ => rfl⟩
  | cons image images ih =>
      obtain ⟨object, returns, frame, set⟩ := ih (memory.place image position) (position + 1)
      refine ⟨object, ?_, ?_, ?_⟩
      · rw [enumerate, returns_bind]
        exact ⟨(), _, rfl, returns⟩
      · intro other hother
        obtain ⟨hne, hnot⟩ := not_or.mp (mt List.mem_cons.mpr hother)
        rw [frame other hnot, place_object_of_ne hne]
      · intro nodup
        obtain ⟨hnot, nodup⟩ := List.nodup_cons.mp nodup
        have unchanged : images.map (memory.place image position).object
            = images.map memory.object := by
          apply List.map_congr_left
          intro other hother
          exact place_object_of_ne (ne_of_mem_of_not_mem hother hnot)
        have shift : ∀ i, position + 1 + i = position + (i + 1) := fun i => by omega
        simp only [List.map_cons, List.mapIdx_cons, frame image hnot, place_object_self, set nodup,
          unchanged, shift, Nat.add_zero]

/-- What the images of a list stand for when they have been numbered. -/
theorem returns_number (memory : Memory) (nodup : memory.images.Nodup)
    (allocated : ∀ image ∈ memory.images, image < memory.next) :
  ∃ memory', Returns (enumerate 0 memory.images) () memory () memory'
    ∧ memory'.Holds { memory.row with images := Product.renumber (memory.images.map memory.object) }
    ∧ ∀ image ∉ memory.images, memory'.object image = memory.object image
  := by
  obtain ⟨object, returns, frame, set⟩ := returns_enumerate memory 0 memory.images
  refine ⟨_, returns, ⟨?_, allocated⟩, frame⟩
  rw [Memory.product, set nodup]
  simp only [Nat.zero_add]
  rfl

section Methods

variable {memory : Memory} {product : Product}

/-- The memory after a new image has been put at the end of the list. -/
def append (memory : Memory) (image : ProductImage) : Memory :=
  { memory with
    images := memory.images ++ [memory.next]
    object := Function.update memory.object memory.next image
    next := memory.next + 1 }

theorem Holds.append (h : memory.Holds product) (image : ProductImage) :
  (memory.append image).Holds { product with images := product.images ++ [image] }
  := by
  obtain ⟨rfl, allocated⟩ := h
  constructor
  · have unchanged : memory.images.map (memory.append image).object
        = memory.images.map memory.object := by
      apply List.map_congr_left
      intro other hother
      exact Function.update_of_ne (Nat.ne_of_lt (allocated other hother)) _ _
    have placed : (memory.append image).object memory.next = image := Function.update_self _ _ _
    have images : (memory.append image).images = memory.images ++ [memory.next] := rfl
    rw [Memory.product, images, List.map_append, unchanged, List.map_singleton, placed]
    rfl
  · intro other hother
    obtain hother | hother := List.mem_append.mp hother
    · exact Nat.lt_succ_of_lt (allocated other hother)
    · rw [List.mem_singleton.mp hother]
      exact Nat.lt_succ_self _

theorem follows_addImage (h : memory.Holds product) {id key : String}
    {thumbKey uploadKey : Option String} {contentType : String} {sizeBytes : ℕ} {now : Time} :
  Follows (addImage id key thumbKey uploadKey contentType sizeBytes now) memory Memory.object
    (product.addImage id key thumbKey uploadKey contentType sizeBytes now)
  := by
  have same : product.images.length = memory.images.length := by
    rw [← h.product]
    exact List.length_map _
  rw [Product.addImage, Product.ensureRoomForImage, ensureRoomForImageCount, same]
  by_cases room : maxImagesPerProduct ≤ memory.images.length
  · rw [if_pos room]
    show Raises _ _ _ _ _
    rw [addImage, ensureRoomForImage]
    simp [room]
  · rw [if_neg room]
    refine ⟨memory.next, memory.append _, ?_, h.append _, Function.update_self _ _ _⟩
    obtain ⟨rfl, _⟩ := h
    have enough : Returns ensureRoomForImage () memory () memory := by
      rw [ensureRoomForImage, returns_bind]
      exact ⟨_, memory, rfl, returns_ensure.mpr ⟨not_le.mp room, rfl⟩⟩
    rw [addImage, returns_bind]
    exact ⟨(), memory, enough, rfl⟩

theorem follows_removeImage (h : memory.Holds product)
    (distinct : (product.images.map ProductImage.id).Nodup) {imageId : String} :
  Follows (removeImage imageId) memory Memory.object (product.removeImage imageId)
  := by
  obtain ⟨rfl, allocated⟩ := h
  have nodup : memory.images.Nodup := .of_map memory.object (.of_map ProductImage.id distinct)
  have find : memory.product.images.find? (·.id = imageId)
      = (memory.images.find? fun image => (memory.object image).id = imageId).map memory.object :=
    List.find?_map
  rw [Product.removeImage, find]
  cases hfound : memory.images.find? fun image => (memory.object image).id = imageId with
  | none =>
      show Raises _ _ _ _ _
      rw [removeImage]
      simp [hfound]
  | some image =>
      let kept : Memory := { memory with
        images := memory.images.eraseP fun other => memory.object other = memory.object image }
      have sub : kept.images.Sublist memory.images := List.eraseP_sublist
      obtain ⟨memory', returns, holds, frame⟩ := kept.returns_number (nodup.sublist sub)
        fun other hother => allocated other (sub.subset hother)
      have erased : kept.images.map memory.object
          = memory.product.images.erase (memory.object image) := by
        have byValue : (· == memory.object image) ∘ memory.object
            = fun other => decide (memory.object other = memory.object image) :=
          funext fun _ => beq_eq_decide _ _
        rw [List.erase_eq_eraseP', Memory.product, List.eraseP_map, byValue]
      refine ⟨image, memory', ?_, erased ▸ holds, ?_⟩
      · rw [removeImage, returns_bind]
        refine ⟨_, memory, rfl, ?_⟩
        rw [returns_bind]
        refine ⟨_, memory, rfl, ?_⟩
        rw [hfound, returns_bind]
        refine ⟨(), kept, rfl, ?_⟩
        rw [returns_bind]
        refine ⟨_, kept, rfl, ?_⟩
        rw [returns_bind]
        exact ⟨(), memory', returns, rfl⟩
      · apply frame
        intro himage
        have hkept := List.mem_map_of_mem (f := memory.object) himage
        rw [erased] at hkept
        exact (List.Nodup.of_map ProductImage.id distinct).not_mem_erase hkept

/-- The images of some ids are looked up one after the other. -/
theorem returns_lookUp {byId : String → Option ℕ} {imageIds : List String}
    (h : ∀ imageId ∈ imageIds, (byId imageId).isSome) :
  Returns (lookUp byId imageIds) () memory (imageIds.filterMap byId) memory
  := by
  induction imageIds with
  | nil => rfl
  | cons imageId imageIds ih =>
      obtain ⟨image, found⟩ := Option.isSome_iff_exists.mp (h imageId List.mem_cons_self)
      rw [List.filterMap_cons_some found, lookUp, found]
      apply returns_map.mpr
      exact ⟨_, ih fun other hother => h other (List.mem_cons_of_mem imageId hother), rfl⟩

theorem follows_reorderImages (h : memory.Holds product)
    (distinct : (product.images.map ProductImage.id).Nodup) {imageIds : List String} :
  Follows (reorderImages imageIds) memory (fun _ u => u)
    ((fun product => (product, ())) <$> product.reorderImages imageIds)
  := by
  obtain ⟨rfl, allocated⟩ := h
  have keys : memory.keys = (memory.product.images.map ProductImage.id).dedup :=
    congrArg List.dedup List.map_map.symm
  have find : ∀ imageId, memory.product.byId imageId
      = (memory.byId imageId).map memory.object := fun imageId => by
    rw [Product.byId, Memory.product, ← List.map_reverse, List.find?_map]
    rfl
  rw [Product.reorderImages]
  by_cases listed : imageIds.insertionSort (· ≤ ·)
      = (memory.product.images.map ProductImage.id).dedup.insertionSort (· ≤ ·)
  · rw [if_neg (not_not.mpr listed)]
    have perm := (Product.sorted_eq_iff distinct).mp listed
    have all : ∀ imageId ∈ imageIds, (memory.byId imageId).isSome := by
      intro imageId himage
      obtain ⟨image, hmem, rfl⟩ := List.mem_map.mp (perm.mem_iff.mp himage)
      have found := Product.byId_of_mem distinct hmem
      rw [find] at found
      exact Option.isSome_iff_exists.mpr ⟨_, (Option.map_eq_some_iff.mp found).choose_spec.1⟩
    let ordered : Memory := { memory with images := imageIds.filterMap memory.byId }
    have objects : ordered.images.map memory.object
        = imageIds.filterMap memory.product.byId := by
      rw [List.map_filterMap]
      exact congrArg (List.filterMap · imageIds) (funext fun imageId => (find imageId).symm)
    have same : (imageIds.filterMap memory.product.byId).Perm memory.product.images :=
      (perm.filterMap _).trans (.of_eq (Product.filterMap_byId distinct fun _ hi => hi))
    have nodup : ordered.images.Nodup := by
      apply List.Nodup.of_map memory.object
      rw [objects]
      exact same.nodup_iff.mpr (.of_map ProductImage.id distinct)
    have known : ∀ image ∈ ordered.images, image < ordered.next := by
      intro image himage
      obtain ⟨imageId, _, found⟩ := List.mem_filterMap.mp himage
      exact allocated image (List.mem_reverse.mp (List.mem_of_find?_eq_some found))
    obtain ⟨memory', returns, holds, _⟩ := ordered.returns_number nodup known
    refine ⟨(), memory', ?_, objects ▸ holds, rfl⟩
    rw [reorderImages, returns_bind]
    refine ⟨_, memory, rfl, ?_⟩
    rw [returns_bind]
    refine ⟨_, memory, rfl, ?_⟩
    rw [returns_bind]
    refine ⟨(), memory, returns_ensure.mpr ⟨keys ▸ listed, rfl⟩, ?_⟩
    rw [returns_bind]
    refine ⟨_, memory, returns_lookUp all, ?_⟩
    rw [returns_bind]
    refine ⟨(), ordered, rfl, ?_⟩
    rw [returns_bind]
    exact ⟨_, ordered, rfl, returns⟩
  · rw [if_pos listed]
    show Raises _ _ _ _ _
    rw [reorderImages]
    simp [keys, listed]

end Methods

end Memory

end MvpApi
