import MvpApi.Domain.Memory
import MvpApi.Safety.Quotas

/-!
# The images of a product are a sequence

The methods that add, remove and reorder images keep the list of a product a sequence: the images
have different ids, their positions are `0, 1, 2, ..` in the order of the list, and there are not
more than a product can have. This holds after any calls, also of those that raise, since these
change nothing.
-/

set_option autoImplicit false

namespace MvpApi

open Exec

/-! ### Calls -/

/-- A call of a method that changes the images. -/
inductive ImageCall where
  | add (id key : String) (thumbKey uploadKey : Option String) (contentType : String)
      (sizeBytes : ℕ) (now : Time)
  | remove (imageId : String)
  | reorder (imageIds : List String)

namespace ImageCall

/-- The id of the image that the call creates. -/
def newId : ImageCall → Option String
  | add id _ _ _ _ _ _ => some id
  | _ => none

def method : ImageCall → Method (Option ℕ)
  | add id key thumbKey uploadKey contentType sizeBytes now =>
      some <$> Memory.addImage id key thumbKey uploadKey contentType sizeBytes now
  | remove imageId => some <$> Memory.removeImage imageId
  | reorder imageIds => (fun _ => none) <$> Memory.reorderImages imageIds

/-- What the call does to a product as a value. -/
def outcome (product : Product) : ImageCall → Except DomainError (Product × Option ProductImage)
  | add id key thumbKey uploadKey contentType sizeBytes now =>
      Prod.map (fun product => product) some
        <$> product.addImage id key thumbKey uploadKey contentType sizeBytes now
  | remove imageId => Prod.map (fun product => product) some <$> product.removeImage imageId
  | reorder imageIds => (fun product => (product, none)) <$> product.reorderImages imageIds

end ImageCall

/-- The memory after some calls. A call that raises leaves what it has done. -/
def Memory.after (memory : Memory) (calls : List ImageCall) : Memory :=
  calls.foldl (fun memory call => (call.method.run () memory).2) memory

/-- What a method returns may be changed afterwards. -/
theorem Memory.Follows.map {α α' β β' : Type} {method : Method α} {memory : Memory}
    {value : Memory → α → β} {value' : Memory → α' → β'} {f : α → α'} {g : β → β'}
    {result : Except DomainError (Product × β)} (h : Follows method memory value result)
    (same : ∀ memory a, value' memory (f a) = g (value memory a)) :
  Follows (f <$> method) memory value' (Prod.map (fun product => product) g <$> result)
  := by
  cases result with
  | error e => exact raises_map.mpr h
  | ok result =>
      obtain ⟨a, memory', returns, holds, hvalue⟩ := h
      exact ⟨f a, memory', returns_map.mpr ⟨a, returns, rfl⟩, holds,
        (same memory' a).trans (congrArg g hvalue)⟩

/-- A call does in memory what it does to the value. -/
theorem ImageCall.follows {memory : Memory} {product : Product} (h : memory.Holds product)
    (distinct : (product.images.map ProductImage.id).Nodup) (call : ImageCall) :
  Memory.Follows call.method memory (fun memory image => image.map memory.object)
    (call.outcome product)
  := by
  cases call with
  | add id key thumbKey uploadKey contentType sizeBytes now =>
      exact (Memory.follows_addImage h).map fun _ _ => rfl
  | remove imageId => exact (Memory.follows_removeImage h distinct).map fun _ _ => rfl
  | reorder imageIds =>
      have follows : Memory.Follows (method (reorder imageIds)) memory
          (fun memory image => image.map memory.object)
          (Prod.map (fun product => product) (fun _ => none)
            <$> (fun product => (product, ())) <$> product.reorderImages imageIds) :=
        (Memory.follows_reorderImages h distinct).map fun _ _ => rfl
      rw [← comp_map] at follows
      exact follows

/-! ### Sequences -/

/-- The images have different ids, are at the positions `0, 1, 2, ..`, and are not too many. -/
structure Sequence (images : List ProductImage) : Prop extends Arranged images where
  distinct : (images.map ProductImage.id).Nodup

section Outcomes

variable {product product' : Product} {image : ProductImage}

theorem Product.addImage_eq_ok {id key : String} {thumbKey uploadKey : Option String}
    {contentType : String} {sizeBytes : ℕ} {now : Time} :
  product.addImage id key thumbKey uploadKey contentType sizeBytes now = .ok (product', image)
    ↔ product.images.length < maxImagesPerProduct
      ∧ image = ⟨id, product.id, product.workspaceId, key, thumbKey, uploadKey, contentType,
        sizeBytes, product.images.length, now⟩
      ∧ product' = { product with images := product.images ++ [image] }
  := by
  rw [addImage, Except.bind_eq_ok]
  constructor
  · rintro ⟨_, room, made⟩
    cases made
    exact ⟨ensureRoomForImage_eq_ok.mp room, rfl, rfl⟩
  · rintro ⟨room, rfl, rfl⟩
    exact ⟨(), ensureRoomForImage_eq_ok.mpr room, rfl⟩

/-- The image of an id is dropped, and the others are numbered in their order. -/
theorem Product.removeImage_eq_ok (distinct : (product.images.map ProductImage.id).Nodup)
    {imageId : String} :
  product.removeImage imageId = .ok (product', image)
    ↔ image ∈ product.images ∧ image.id = imageId
      ∧ product' = { product with
          images := renumber (product.images.filter (·.id ≠ imageId)) }
  := by
  have find : product.images.find? (·.id = imageId) = some image
      ↔ image ∈ product.images ∧ image.id = imageId := by
    constructor
    · intro found
      exact ⟨List.mem_of_find?_eq_some found, by simpa using List.find?_some found⟩
    · rintro ⟨hmem, rfl⟩
      cases found : product.images.find? (·.id = image.id) with
      | none => simpa using List.find?_eq_none.mp found image hmem
      | some other =>
          have hid : other.id = image.id := by simpa using List.find?_some found
          rw [List.inj_on_of_nodup_map distinct (List.mem_of_find?_eq_some found) hmem hid]
  have erase : image ∈ product.images → image.id = imageId →
      product.images.erase image = product.images.filter (·.id ≠ imageId) := by
    rintro hmem rfl
    rw [(List.Nodup.of_map ProductImage.id distinct).erase_eq_filter]
    apply List.filter_congr
    intro other hother
    have same : other = image ↔ other.id = image.id :=
      ⟨fun h => h ▸ rfl, List.inj_on_of_nodup_map distinct hother hmem⟩
    rw [Bool.eq_iff_iff]
    simp [same]
  rw [removeImage, Except.bind_eq_ok]
  constructor
  · rintro ⟨_, found, made⟩
    cases made
    obtain ⟨hmem, hid⟩ := find.mp (found_eq_ok.mp found)
    exact ⟨hmem, hid, by rw [erase hmem hid]⟩
  · rintro ⟨hmem, hid, rfl⟩
    refine ⟨image, found_eq_ok.mpr (find.mpr ⟨hmem, hid⟩), ?_⟩
    rw [← erase hmem hid]
    rfl

/-- Images are reordered by a list of their ids, each once. -/
theorem Product.reorderImages_eq_ok (distinct : (product.images.map ProductImage.id).Nodup)
    {imageIds : List String} :
  product.reorderImages imageIds = .ok product'
    ↔ imageIds.Perm (product.images.map ProductImage.id)
      ∧ product' = { product with images := renumber (imageIds.filterMap product.byId) }
  := by
  rw [reorderImages, ← sorted_eq_iff distinct]
  split
  · next unlisted => simp [unlisted]
  · next listed => simp [not_not.mp listed, eq_comm]

/-- The images looked up by a list of ids have these ids. -/
theorem Product.map_id_filterMap_byId (distinct : (product.images.map ProductImage.id).Nodup)
    {imageIds : List String}
    (h : ∀ imageId ∈ imageIds, imageId ∈ product.images.map ProductImage.id) :
  (imageIds.filterMap product.byId).map ProductImage.id = imageIds
  := by
  induction imageIds with
  | nil => rfl
  | cons imageId imageIds ih =>
      obtain ⟨image, hmem, rfl⟩ := List.mem_map.mp (h imageId List.mem_cons_self)
      rw [List.filterMap_cons_some (byId_of_mem distinct hmem), List.map_cons,
        ih fun other hother => h other (List.mem_cons_of_mem _ hother)]

/-- Numbering images that have different ids makes them a sequence, if they are not too many. -/
theorem Sequence.renumber {images : List ProductImage}
    (distinct : (images.map ProductImage.id).Nodup) (few : images.length ≤ maxImagesPerProduct) :
  Sequence (Product.renumber images)
  where
  numbered := Product.numbered_renumber images
  few := by rwa [Product.length_renumber]
  distinct := by rwa [Product.map_renumber fun _ _ => rfl]

/-- The images after a call are a sequence again, if the id of a new image is new. The ids are
those of images that were there, or of a new image. -/
theorem Sequence.outcome (h : Sequence product.images) {call : ImageCall}
    {result : Option ProductImage} (done : call.outcome product = .ok (product', result))
    (fresh : ∀ id, call.newId = some id → id ∉ product.images.map ProductImage.id) :
  Sequence product'.images ∧ (product'.images.map ProductImage.id).Subperm
    (product.images.map ProductImage.id ++ call.newId.toList)
  := by
  cases call with
  | add id key thumbKey uploadKey contentType sizeBytes now =>
      obtain ⟨⟨_, image⟩, added, made⟩ := Except.map_eq_ok.mp done
      cases made
      obtain ⟨room, himage, rfl⟩ := Product.addImage_eq_ok.mp added
      have ids : (product.images ++ [image]).map ProductImage.id
          = product.images.map ProductImage.id ++ [id] := by
        rw [List.map_append, List.map_singleton, himage]
      have position : image.position = product.images.length := by rw [himage]
      refine ⟨⟨⟨h.numbered.append position, ?_⟩, ?_⟩, ?_⟩
      · rw [List.length_append, List.length_singleton]
        exact room
      · rw [ids]
        exact List.nodup_append'.mpr ⟨h.distinct, List.nodup_singleton id,
          List.disjoint_singleton.mpr (fresh id rfl)⟩
      · rw [ids]
        exact List.Subperm.refl _
  | remove imageId =>
      obtain ⟨⟨_, image⟩, removed, made⟩ := Except.map_eq_ok.mp done
      cases made
      obtain ⟨_, _, rfl⟩ := (Product.removeImage_eq_ok h.distinct).mp removed
      have sub : (product.images.filter (·.id ≠ imageId)).Sublist product.images :=
        List.filter_sublist
      refine ⟨.renumber (h.distinct.sublist (sub.map _)) (sub.length_le.trans h.few), ?_⟩
      rw [Product.map_renumber fun _ _ => rfl]
      exact (sub.map _).subperm.trans (List.sublist_append_left _ _).subperm
  | reorder imageIds =>
      obtain ⟨_, reordered, made⟩ := Except.map_eq_ok.mp done
      cases made
      obtain ⟨perm, rfl⟩ := (Product.reorderImages_eq_ok h.distinct).mp reordered
      have ids := Product.map_id_filterMap_byId h.distinct fun _ hid => perm.mem_iff.mp hid
      have length : (imageIds.filterMap product.byId).length = product.images.length := by
        rw [← List.length_map ProductImage.id, ids, perm.length_eq, List.length_map]
      have distinct : ((imageIds.filterMap product.byId).map ProductImage.id).Nodup := by
        rw [ids]
        exact perm.nodup_iff.mpr h.distinct
      refine ⟨.renumber distinct (length.trans_le h.few), ?_⟩
      rw [Product.map_renumber fun _ _ => rfl, ids]
      exact perm.subperm.trans (List.sublist_append_left _ _).subperm

end Outcomes

/-! ### Runs -/

/-- Calls create images with ids that are not those of the product, and different ones. -/
def Fresh (images : List ProductImage) (calls : List ImageCall) : Prop :=
  (images.map ProductImage.id ++ calls.filterMap ImageCall.newId).Nodup

theorem Fresh.newId {images : List ProductImage} {call : ImageCall} {calls : List ImageCall}
    (h : Fresh images (call :: calls)) {id : String} (new : call.newId = some id) :
  id ∉ images.map ProductImage.id
  := by
  rw [Fresh, List.filterMap_cons_some new] at h
  exact fun hid => (List.nodup_append.mp h).2.2 id hid id List.mem_cons_self rfl

/-- After a call, a run is still fresh. -/
theorem Fresh.next {images images' : List ProductImage} {call : ImageCall} {calls : List ImageCall}
    (h : Fresh images (call :: calls))
    (sub : (images'.map ProductImage.id).Subperm
      (images.map ProductImage.id ++ call.newId.toList)) :
  Fresh images' calls
  := by
  have split : (call :: calls).filterMap ImageCall.newId
      = call.newId.toList ++ calls.filterMap ImageCall.newId := by
    rw [List.filterMap_cons]
    cases call.newId with
    | none => rfl
    | some id => rfl
  rw [Fresh, split, ← List.append_assoc] at h
  obtain ⟨ids, perm, sublist⟩ :=
    (List.subperm_append_right (calls.filterMap ImageCall.newId)).mpr sub
  exact perm.nodup_iff.mp (h.sublist sublist)

/-- Any calls leave the images a sequence, of a product that is otherwise the same. -/
theorem Sequence.after {memory : Memory} {product : Product} (h : Sequence product.images)
    (holds : memory.Holds product) {calls : List ImageCall} (fresh : Fresh product.images calls) :
  ∃ product', (memory.after calls).Holds product' ∧ Sequence product'.images
  := by
  induction calls generalizing memory product with
  | nil => exact ⟨product, holds, h⟩
  | cons call calls ih =>
      have follows := call.follows holds h.distinct
      rw [Memory.after, List.foldl_cons]
      cases done : call.outcome product with
      | error e =>
          rw [done] at follows
          rw [show (call.method.run () memory).2 = memory from congrArg Prod.snd follows]
          exact ih h holds (fresh.next (List.sublist_append_left _ _).subperm)
      | ok result =>
          obtain ⟨product', image⟩ := result
          rw [done] at follows
          obtain ⟨a, memory', returns, holds', _⟩ := follows
          obtain ⟨h', sub⟩ := h.outcome done fun id => fresh.newId
          rw [show (call.method.run () memory).2 = memory' from congrArg Prod.snd returns]
          exact ih h' holds' (fresh.next sub)

/-! ### All calls -/

/-- A product that has just been created, or that was read from the database in some run. -/
inductive Product.Known (env : Env) (quotas : ProductQuotas) : Product → Prop where
  | created {id workspaceId name : String} {sku : Option String} {price : Price}
      {status : ProductStatus} {description : Option String} {created : Time} {product : Product}
      (h : Product.create id workspaceId name sku price status description created = .ok product) :
      Known env quotas product
  | read {s : Session} {row : ProductRow} (reachable : Reachable env (Work.Under quotas) s)
      (h : row ∈ s.db.products) : Known env quotas (s.db.withImages row)

theorem Product.Known.sequence {env : Env} {quotas : ProductQuotas} {product : Product}
    (h : product.Known env quotas) :
  Sequence product.images
  := by
  cases h with
  | created h =>
      obtain ⟨_, _, made⟩ := Except.bind_eq_ok.mp h
      cases made
      exact ⟨⟨rfl, Nat.zero_le _⟩, List.nodup_nil⟩
  | @read s row reachable h =>
      exact ⟨reachable.orderly.arranged row.id, s.db.nodup_ids_imagesOf row.id⟩

/-- The images of a product in memory are a sequence, and the methods treat it as one. -/
structure Memory.Faithful (memory : Memory) : Prop where
  distinct : (memory.product.images.map ProductImage.id).Nodup
  positions : memory.product.images.map ProductImage.position
    = List.range memory.product.images.length
  few : memory.product.images.length ≤ 10
  /-- Rows in any order, read in the order of their positions, are the list again. -/
  ordered : ∀ rows : List ProductImage, rows.Perm memory.product.images →
    orderBy ProductImage.position rows = memory.product.images
  /-- The list is what is read of a product from a database that has these images of it. -/
  reloaded : ∀ (db : Db) (productId : String),
    (∀ image, image ∈ memory.product.images ↔ image ∈ db.images ∧ image.productId = productId) →
      db.imagesOf productId = memory.product.images
  removable : ∀ imageId, imageId ∈ memory.product.images.map ProductImage.id
    ↔ ∃ image memory', Returns (removeImage imageId) () memory image memory'
  /-- The image of the id is returned, and the others stay in their order. -/
  removed : ∀ imageId image memory', Returns (removeImage imageId) () memory image memory' →
    memory'.object image ∈ memory.product.images ∧ (memory'.object image).id = imageId
      ∧ memory'.product = { memory.product with
          images := Product.renumber (memory.product.images.filter (·.id ≠ imageId)) }
  reorderable : ∀ imageIds, imageIds.Perm (memory.product.images.map ProductImage.id)
    ↔ ∃ memory', Returns (reorderImages imageIds) () memory () memory'
  /-- The images are in the order of the ids, and but for their positions as they were. -/
  reordered : ∀ imageIds memory', Returns (reorderImages imageIds) () memory () memory' →
    memory'.product.images.map ProductImage.id = imageIds
      ∧ (∀ image ∈ memory'.product.images, ∃ old ∈ memory.product.images,
        image = { old with position := image.position })
      ∧ memory'.product.toProductRow = memory.product.toProductRow
  raised : ∀ (call : ImageCall) (e : Failure) (memory' : Memory),
    Raises call.method () memory e memory' → memory' = memory

section Follows

variable {α β : Type} {method : Method α} {memory memory' : Memory} {value : Memory → α → β}
variable {result : Except DomainError (Product × β)}

/-- A method that returns has done what the function says. -/
theorem Memory.Follows.of_returns {a : α} (h : Follows method memory value result)
    (returns : Returns method () memory a memory') :
  ∃ product, result = .ok (product, value memory' a) ∧ memory'.Holds product
  := by
  cases result with
  | error e => exact absurd h returns.not_raises
  | ok result =>
      obtain ⟨product, b⟩ := result
      obtain ⟨a', memory'', returns', holds, rfl⟩ := h
      obtain ⟨rfl, rfl⟩ := returns.unique returns'
      exact ⟨product, rfl, holds⟩

/-- A method that raises has changed nothing. -/
theorem Memory.Follows.of_raises {e : Failure} (h : Follows method memory value result)
    (raises : Raises method () memory e memory') :
  memory' = memory
  := by
  cases result with
  | error e' =>
      cases raises.symm.trans h
      rfl
  | ok result =>
      obtain ⟨a, memory'', returns, _⟩ := h
      exact absurd raises returns.not_raises

end Follows

/-- What is in memory of a sequence is faithful. -/
theorem Sequence.faithful {memory : Memory} (h : Sequence memory.product.images)
    (holds : memory.Holds memory.product) :
  memory.Faithful
  where
  distinct := h.distinct
  positions := h.numbered
  few := h.few
  ordered _ perm := Numbered.orderBy_eq h.numbered perm
  reloaded _ _ mem := Db.imagesOf_eq h.numbered mem
  removable imageId := by
    have follows : Memory.Follows (Memory.removeImage imageId) memory Memory.object
        (memory.product.removeImage imageId) := Memory.follows_removeImage holds h.distinct
    constructor
    · intro hid
      obtain ⟨image, hmem, himage⟩ := List.mem_map.mp hid
      rw [(Product.removeImage_eq_ok h.distinct).mpr ⟨hmem, himage, rfl⟩] at follows
      obtain ⟨image, memory', returns, _⟩ := follows
      exact ⟨image, memory', returns⟩
    · rintro ⟨image, memory', returns⟩
      obtain ⟨product', done, _⟩ := follows.of_returns returns
      obtain ⟨hmem, hid, _⟩ := (Product.removeImage_eq_ok h.distinct).mp done
      exact hid ▸ List.mem_map_of_mem hmem
  removed imageId image memory' returns := by
    obtain ⟨product', done, holds'⟩ :=
      (Memory.follows_removeImage holds h.distinct).of_returns returns
    obtain ⟨hmem, hid, rfl⟩ := (Product.removeImage_eq_ok h.distinct).mp done
    exact ⟨hmem, hid, holds'.product⟩
  reorderable imageIds := by
    have follows : Memory.Follows (Memory.reorderImages imageIds) memory (fun _ u => u)
        ((fun product => (product, ())) <$> memory.product.reorderImages imageIds) :=
      Memory.follows_reorderImages holds h.distinct
    constructor
    · intro perm
      rw [(Product.reorderImages_eq_ok h.distinct).mpr ⟨perm, rfl⟩] at follows
      obtain ⟨_, memory', returns, _⟩ := follows
      exact ⟨memory', returns⟩
    · rintro ⟨memory', returns⟩
      obtain ⟨product', done, _⟩ := follows.of_returns returns
      obtain ⟨_, reordered, _⟩ := Except.map_eq_ok.mp done
      exact ((Product.reorderImages_eq_ok h.distinct).mp reordered).1
  reordered imageIds memory' returns := by
    obtain ⟨product', done, holds'⟩ :=
      (Memory.follows_reorderImages holds h.distinct).of_returns returns
    obtain ⟨_, reordered, made⟩ := Except.map_eq_ok.mp done
    cases made
    obtain ⟨perm, rfl⟩ := (Product.reorderImages_eq_ok h.distinct).mp reordered
    rw [holds'.product]
    refine ⟨?_, ?_, rfl⟩
    · rw [Product.map_renumber fun _ _ => rfl]
      exact Product.map_id_filterMap_byId h.distinct fun _ hid => perm.mem_iff.mp hid
    · intro image himage
      obtain ⟨old, hold, moved⟩ := Product.mem_renumber himage
      obtain ⟨_, _, found⟩ := List.mem_filterMap.mp hold
      exact ⟨old, List.mem_reverse.mp (List.mem_of_find?_eq_some found), moved⟩
  raised call _ _ raises := (call.follows holds h.distinct).of_raises raises

/-- After any calls, also of those that raise, the images of a product have different ids and are
at the positions `0, 1, 2, ..`, ten at most, so that reading them in the order of their positions
gives back the list. An image is removed if its id is there, and returned; the others stay in
their order. Images are reordered by their ids, each once, and only their positions change. A call
that raises has changed nothing. -/
theorem images_faithful {env : Env} {quotas : ProductQuotas} {product : Product}
    (known : product.Known env quotas) {memory : Memory} (holds : memory.Holds product)
    {calls : List ImageCall} (fresh : Fresh product.images calls) :
  (memory.after calls).Faithful
  := by
  obtain ⟨_, ⟨rfl, allocated⟩, sequence⟩ := known.sequence.after holds fresh
  exact sequence.faithful ⟨rfl, allocated⟩

/-- Three images are added to a new product and put into another order, and one of them is removed;
an id that is not there and an order that is not complete are refused in between. -/
theorem images_faithful_of_pen :
  let pen : ProductRow := ⟨"p", "i", "Pen", none, 100, .active, none, 0, 0⟩
  let memory : Memory := ⟨pen, [], fun _ => ⟨"", "", "", "", none, none, "", 0, 0, 0⟩, 0⟩
  let add (id : String) : ImageCall := .add id ("media/" ++ id) none none "image/webp" 1 0
  let calls := [add "a", add "b", .remove "d", add "c", .reorder ["c", "a", "b"], .reorder ["b"],
    .remove "a"]
  (memory.after calls).product.images.map (fun image => (image.id, image.position))
      = [("c", 0), ("b", 1)]
    ∧ (memory.after calls).Faithful
  := by
  intro pen memory add calls
  have created : Product.create "p" "i" "Pen" none 100 .active none 0
      = .ok { pen with images := [] } := rfl
  constructor
  · decide +kernel
  · have known : Product.Known .sample ⟨1, 100⟩ { pen with images := [] } := .created created
    have fresh : (["a", "b", "c"] : List String).Nodup := by decide
    exact images_faithful known ⟨rfl, fun _ h => absurd h List.not_mem_nil⟩ fresh

end MvpApi
