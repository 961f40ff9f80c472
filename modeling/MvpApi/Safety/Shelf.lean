import MvpApi.Safety.Quotas

/-!
# The products as one shelf

The rows of a product are those of two tables: its own, and one for each image with the position it
has. What they stand for is a shelf with one product for each id, its images in order, and what the
domain lets be done to one product at a time. `Product.Step` says what each transaction does to a
product, in terms of the domain alone, and `Shelf.Step` what it does to the shelf. However
transactions overlap, the rows they leave stand for a shelf that the same transactions lead to, one
after the other, in the order of their commits.
-/

set_option autoImplicit false

namespace MvpApi

open Optimistic Exec

/-! ### The shelf -/

/-- The products by their ids. -/
abbrev Shelf := String → Option Product

/-- The shelf that the rows stand for. -/
def Db.shelf (db : Db) : Shelf := fun id => (db.products.get id).map db.withImages

/-- What a transaction does to the product of an id. -/
inductive Product.Step : Work → String → Option Product → Option Product → Prop
  | create {quotas : ProductQuotas} {workspaceId name : String} {sku : Option String}
      {price : Price} {status : ProductStatus} {description : Option String} {id : String}
      (created : Time) (product : Product)
      (made : Product.create id workspaceId name sku price status description created
        = .ok product) :
      Step (.createProduct quotas workspaceId name sku price status description) id none
        (some product)
  | keep {workspaceId id : String} {changes : ProductChanges} {ifMatch : Option Time}
      (product : Product) (own : product.workspaceId = workspaceId)
      (current : product.ensureUnchangedSince ifMatch = .ok ())
      (same : product.apply changes = product) :
      Step (.updateProduct workspaceId id changes ifMatch) id (some product) (some product)
  | edit {workspaceId id : String} {changes : ProductChanges} {ifMatch : Option Time}
      (product : Product) (now : Time) (own : product.workspaceId = workspaceId)
      (current : product.ensureUnchangedSince ifMatch = .ok ())
      (differs : product.apply changes ≠ product)
      (valid : Product.checkInvariants (product.apply changes).toProductRow = .ok ()) :
      Step (.updateProduct workspaceId id changes ifMatch) id (some product)
        (some { product.apply changes with updatedAt := now })
  | delete {workspaceId id : String} (product : Product)
      (own : product.workspaceId = workspaceId) :
      Step (.deleteProduct workspaceId id) id (some product) none
  | addImage {quotas : ProductQuotas} {workspaceId id : String} {stored : StoredImage}
      {uploadKey : String} (product product' : Product) (image : ProductImage) (imageId : String)
      (now : Time) (own : product.workspaceId = workspaceId)
      (made : product.addImage imageId stored.key (some stored.thumbKey) (some uploadKey)
        stored.contentType stored.sizeBytes now = .ok (product', image)) :
      Step (.attachImage quotas workspaceId id stored uploadKey) id (some product) (some product')
  | removeImage {workspaceId id imageId : String} (product product' : Product)
      (image : ProductImage) (own : product.workspaceId = workspaceId)
      (made : product.removeImage imageId = .ok (product', image)) :
      Step (.removeImage workspaceId id imageId) id (some product) (some product')
  | reorderImages {workspaceId id : String} {imageIds : List String} (product product' : Product)
      (own : product.workspaceId = workspaceId)
      (made : product.reorderImages imageIds = .ok product') :
      Step (.reorderImages workspaceId id imageIds) id (some product) (some product')
  | purge {workspaceId id : String} (product : Product)
      (own : product.workspaceId = workspaceId) :
      Step (.deleteBatch workspaceId) id (some product) none

/-- How many products a transaction acts on: one, or those of a batch, or none. -/
def Work.Spans (ids : List String) : Work → Prop
  | .createProduct .. | .updateProduct .. | .deleteProduct .. | .attachImage ..
  | .removeImage .. | .reorderImages .. => ids.length = 1
  | .deleteBatch _ => ids.length ≤ PurgeTx.productBatch
  | _ => ids = []

/-- What a transaction does to the shelf: its step to the products that it acts on, and nothing to
the others. -/
inductive Shelf.Step (work : Work) (shelf shelf' : Shelf) : Prop
  | intro (ids : List String) (spans : work.Spans ids)
      (steps : ∀ id ∈ ids, Product.Step work id (shelf id) (shelf' id))
      (others : ∀ id ∉ ids, shelf' id = shelf id) : Step work shelf shelf'

/-! ### What one transaction does -/

/-- The rows can be read back as products: the images of each product are numbered, and there are
no others. -/
structure Db.Shelved (db : Db) : Prop where
  arranged : ∀ id, Arranged (db.imagesOf id)
  owned : ∀ image ∈ db.images, (db.products.get image.productId).isSome

/-- What a transaction with a footprint does to the rows of the products that it acts on, and of
the others. -/
structure Acts (ids : List String) (footprint : Set RowId) (db db' : Db) : Prop where
  locked : ∀ id ∈ ids, .product id ∈ footprint
  products : ∀ id ∉ ids, db'.products.get id = db.products.get id
  images : ∀ id ∉ ids, db.images.Same (·.productId = id) db'.images

/-- What a transaction does is a step of the products that it acts on, and the rows can be read back
afterwards. -/
inductive Performs (work : Work) (footprint : Set RowId) (db db' : Db) : Prop
  | intro (ids : List String) (spans : work.Spans ids)
      (steps : ∀ id ∈ ids, Product.Step work id (db.shelf id) (db'.shelf id))
      (acts : Acts ids footprint db db') (shelved : db'.Shelved) : Performs work footprint db db'

theorem Db.shelf_of_get {db : Db} {id : String} {row : ProductRow}
    (stored : db.products.get id = some row) :
  db.shelf id = some (db.withImages row)
  := by
  rw [shelf, stored]
  rfl

/-- The product of an id depends on its rows only. -/
theorem Db.shelf_congr {db db' : Db} {id : String}
    (products : db'.products.get id = db.products.get id)
    (images : db.images.Same (·.productId = id) db'.images) :
  db'.shelf id = db.shelf id
  := by
  rw [shelf, shelf, products]
  cases stored : db.products.get id with
  | none => rfl
  | some row =>
      obtain ⟨_, rfl⟩ := Table.get_eq_some_iff.mp stored
      rw [Option.map_some, Option.map_some, withImages, withImages, imagesOf_congr images]

/-- An id that no product has has no images either. -/
theorem Db.Shelved.imagesOf_fresh {db : Db} (h : db.Shelved) {id : String}
    (fresh : db.products.get id = none) :
  db.imagesOf id = []
  := by
  rw [List.eq_nil_iff_forall_not_mem]
  intro image hi
  obtain ⟨stored, rfl⟩ := Db.mem_imagesOf.mp hi
  exact absurd (h.owned image stored) (by simp [fresh])

section Spec

variable {env : Env} {s s' : Session} {footprint : Set RowId}

/-- A step that writes the row of one product, and no images. -/
theorem Performs.write {db : Db} {work : Work} {row : ProductRow}
    (spans : work.Spans [row.id]) (shelved : db.Shelved) (locked : .product row.id ∈ footprint)
    (step : Product.Step work row.id (db.shelf row.id) (some (db.withImages row))) :
  Performs work footprint db { db with products := db.products.put row }
  := by
  refine .intro [row.id] spans (fun id hid => ?_) ⟨fun id hid => ?_, fun id hid => ?_,
    fun id _ => .refl _ _⟩ ⟨shelved.arranged, fun image hi => ?_⟩
  · obtain rfl := List.mem_singleton.mp hid
    have after : Db.shelf { db with products := db.products.put row } row.id = _ :=
      Db.shelf_of_get (db.products.get_put_self row)
    rw [after]
    exact step
  · exact List.mem_singleton.mp hid ▸ locked
  · exact db.products.get_put_of_ne fun h => hid (List.mem_singleton.mpr h)
  · exact Table.isSome_get_put row (shelved.owned image hi)

/-- A step that changes the images of one product. -/
theorem Performs.rearrange {db : Db} {work : Work} {row : ProductRow}
    {images' : Table ProductImage.id} (spans : work.Spans [row.id]) (shelved : db.Shelved)
    (locked : .product row.id ∈ footprint) (stored : db.products.get row.id = some row)
    (others : db.images.Same (·.productId ≠ row.id) images')
    (arranged : Arranged (Db.imagesOf { db with images := images' } row.id))
    (step : Product.Step work row.id (some (db.withImages row))
      (some (Db.withImages { db with images := images' } row))) :
  Performs work footprint db { db with images := images' }
  := by
  have same : ∀ id, id ≠ row.id → db.images.Same (·.productId = id) images' :=
    fun id hne => others.mono fun image hof => hof ▸ hne
  refine .intro [row.id] spans (fun id hid => ?_) ⟨fun id hid => ?_, fun id _ => rfl,
    fun id hid => same id fun h => hid (List.mem_singleton.mpr h)⟩
    ⟨fun id => ?_, fun image hi => ?_⟩
  · obtain rfl := List.mem_singleton.mp hid
    have after : Db.shelf { db with images := images' } row.id = _ := Db.shelf_of_get stored
    rw [Db.shelf_of_get stored, after]
    exact step
  · exact List.mem_singleton.mp hid ▸ locked
  · by_cases hid : id = row.id
    · exact hid ▸ arranged
    · rw [Db.imagesOf_congr (same id hid)]
      exact shelved.arranged id
  · by_cases hid : image.productId = row.id
    · show (db.products.get image.productId).isSome
      rw [hid, stored]
      rfl
    · exact shelved.owned image ((others image hid).mp hi)

/-- A step that discards products with their images. -/
theorem Performs.discard {db db' : Db} {work : Work} {ids : List String}
    (spans : work.Spans ids) (shelved : db.Shelved) (locked : ∀ id ∈ ids, .product id ∈ footprint)
    (products : ∀ id, db'.products.get id = if id ∈ ids then none else db.products.get id)
    (images : db'.images = db.images.filter (·.productId ∉ ids))
    (step : ∀ id ∈ ids, Product.Step work id (db.shelf id) none) :
  Performs work footprint db db'
  := by
  have same : ∀ id ∉ ids, db.images.Same (·.productId = id) db'.images := by
    intro id hid
    rw [images]
    exact .filter fun image _ hof => decide_eq_true (hof ▸ hid)
  refine .intro ids spans (fun id hid => ?_) ⟨locked, fun id hid => ?_, same⟩
    ⟨fun id => ?_, fun image hi => ?_⟩
  · rw [show db'.shelf id = none by rw [Db.shelf, products, if_pos hid]; rfl]
    exact step id hid
  · rw [products, if_neg hid]
  · by_cases hid : id ∈ ids
    · have none : db'.imagesOf id = [] := by
        rw [List.eq_nil_iff_forall_not_mem]
        intro image hi
        obtain ⟨stored, rfl⟩ := Db.mem_imagesOf.mp hi
        rw [images, Table.mem_filter] at stored
        exact of_decide_eq_true stored.2 hid
      rw [none]
      exact ⟨rfl, Nat.zero_le _⟩
    · rw [Db.imagesOf_congr (same id hid)]
      exact shelved.arranged id
  · rw [images, Table.mem_filter, decide_eq_true_eq] at hi
    rw [products, if_neg hi.2]
    exact shelved.owned image hi.1

theorem performs_create {quotas : ProductQuotas} {workspaceId name : String} {sku : Option String}
    {price : Price} {status : ProductStatus} {description : Option String} {product : Product}
    (h : Returns (ProductTx.create quotas workspaceId name sku price status description) env s
      product s') (shelved : s.db.Shelved)
    (changed : ∀ row ∈ s.db.changed s'.db, row ∈ footprint) :
  Performs (.createProduct quotas workspaceId name sku price status description) footprint s.db
    s'.db
  := by
  obtain ⟨_, valid, fresh, _, rfl⟩ := ProductTx.returns_create.mp h
  let row := ProductTx.newRow env s workspaceId name sku price status description
  have fresh : s.db.products.get row.id = none := fresh
  have none : s.db.shelf row.id = none := by
    rw [Db.shelf, fresh]
    rfl
  show Performs _ _ _ { s.db with products := s.db.products.put row }
  refine .write rfl shelved (changed (.product row.id) fun same => ?_) ?_
  · exact absurd ((s.db.products.get_put_self row).symm.trans (same.trans fresh)) (by simp)
  · rw [none]
    refine .create (env.clock s.ticks) _ ?_
    have checked : Product.checkInvariants row = .ok () := Product.checkInvariants_eq_ok.mpr valid
    show (Product.checkInvariants row).bind _ = _
    rw [checked, Db.withImages, shelved.imagesOf_fresh fresh]
    rfl

theorem performs_update {workspaceId productId : String} {changes : ProductChanges}
    {ifMatch : Option Time} {product : Product}
    (h : Returns (ProductTx.update workspaceId productId changes ifMatch) env s product s')
    (shelved : s.db.Shelved) (locked : ∀ row ∈ s'.touched, row ∈ footprint) :
  Performs (.updateProduct workspaceId productId changes ifMatch) footprint s.db s'.db
  := by
  obtain ⟨row, stored, own, version, edits⟩ := ProductTx.returns_update.mp h
  obtain ⟨hmem, rfl⟩ := Table.get_eq_some_iff.mp stored
  have current : (s.db.withImages row).ensureUnchangedSince ifMatch = .ok () :=
    ProductTx.ensureUnchangedSince_eq_ok.mpr version
  rcases edits with ⟨same, _, rfl⟩ | ⟨differs, valid, _, rfl⟩
  · have step : Product.Step (.updateProduct workspaceId row.id changes ifMatch) row.id
        (s.db.shelf row.id) (some (s.db.withImages row)) := by
      rw [Db.shelf_of_get stored]
      refine .keep _ own current ?_
      rw [ProductTx.apply_withImages, same]
    have written : Performs (.updateProduct workspaceId row.id changes ifMatch) footprint s.db
        { s.db with products := s.db.products.put row } :=
      .write rfl shelved (locked (.product row.id) (by simp)) step
    rwa [Table.put_of_mem hmem] at written
  · let row' : ProductRow := { ProductTx.edited row changes with updatedAt := env.clock s.ticks }
    show Performs _ _ _ { s.db with products := s.db.products.put row' }
    refine .write rfl shelved (locked (.product row.id) (by simp)) ?_
    show Product.Step _ row.id (s.db.shelf row.id) _
    rw [Db.shelf_of_get stored]
    refine .edit _ (env.clock s.ticks) own current (fun same => differs ?_)
      (Product.checkInvariants_eq_ok.mpr valid)
    rw [ProductTx.apply_withImages] at same
    exact ProductTx.withImages_inj.mp same

theorem performs_delete {workspaceId productId : String} {product : Product}
    (h : Returns (ProductTx.delete workspaceId productId) env s product s') (shelved : s.db.Shelved)
    (locked : ∀ row ∈ s'.touched, row ∈ footprint) :
  Performs (.deleteProduct workspaceId productId) footprint s.db s'.db
  := by
  obtain ⟨row, stored, own, _, rfl⟩ := ProductTx.returns_delete.mp h
  have spans : Work.Spans [productId] (.deleteProduct workspaceId productId) := rfl
  refine .discard spans shelved (fun id hid => ?_) (fun id => ?_) ?_ fun id hid => ?_
  · exact locked _ (by simp [List.mem_singleton.mp hid])
  · show (s.db.products.erase productId).get id = _
    simp only [Table.get_erase, List.mem_singleton]
  · show s.db.images.filter _ = _
    simp only [List.mem_singleton]
  · obtain rfl := List.mem_singleton.mp hid
    rw [Db.shelf_of_get stored]
    exact .delete _ own

theorem performs_deleteBatch {workspaceId : String} {result : ℕ × List String}
    (h : Returns (PurgeTx.deleteBatch workspaceId PurgeTx.productBatch) env s result s')
    (shelved : s.db.Shelved) (changed : ∀ row ∈ s.db.changed s'.db, row ∈ footprint) :
  Performs (.deleteBatch workspaceId) footprint s.db s'.db
  := by
  obtain ⟨_, rfl⟩ := PurgeTx.returns_deleteBatch.mp h
  let ids := s.db.firstProducts env workspaceId PurgeTx.productBatch
  have gone : ∀ id, (s.db.products.filter (·.id ∉ ids)).get id
      = if id ∈ ids then none else s.db.products.get id := by
    intro id
    split
    · next hid =>
        refine Table.get_eq_none_iff.mpr fun row hrow hrid => ?_
        exact of_decide_eq_true (Table.mem_filter.mp hrow).2 (hrid ▸ hid)
    · next hid =>
        exact Table.get_filter_of_kept fun row _ hrid => decide_eq_true (hrid ▸ hid)
  have spans : Work.Spans ids (.deleteBatch workspaceId) := List.length_take_le _ _
  refine .discard spans shelved (fun id hid => changed (.product id) fun same => ?_) gone rfl
    fun id hid => ?_
  · obtain ⟨row, hrow, hrid, _⟩ := Db.mem_firstProducts hid
    have stored := Table.get_eq_some_iff.mpr ⟨hrow, hrid⟩
    have same : (s.db.products.filter (·.id ∉ ids)).get id = s.db.products.get id := same
    rw [gone, if_pos hid, stored] at same
    cases same
  · obtain ⟨row, hrow, hrid, own⟩ := Db.mem_firstProducts hid
    rw [Db.shelf_of_get (Table.get_eq_some_iff.mpr ⟨hrow, hrid⟩)]
    exact .purge _ own

/-- The images of a product to which one is attached. -/
theorem Db.imagesOf_put {db : Db} {image : ProductImage}
    (numbered : Numbered (db.imagesOf image.productId)) (fresh : db.images.get image.id = none)
    (last : image.position = (db.imagesOf image.productId).length) :
  Db.imagesOf { db with images := db.images.put image } image.productId
    = db.imagesOf image.productId ++ [image]
  := by
  refine Db.imagesOf_eq (numbered.append last) fun other => ?_
  rw [Table.mem_put_of_get fresh, List.mem_append, Db.mem_imagesOf, List.mem_singleton]
  constructor
  · rintro (⟨hi, hof⟩ | rfl)
    · exact ⟨Or.inr hi, hof⟩
    · exact ⟨Or.inl rfl, rfl⟩
  · rintro ⟨rfl | hi, hof⟩
    · exact Or.inr rfl
    · exact Or.inl ⟨hi, hof⟩

theorem performs_attach {quotas : ProductQuotas} {workspaceId productId uploadKey : String}
    {stored : StoredImage} {image : ProductImage}
    (h : Returns (ProductTx.attach quotas workspaceId productId stored uploadKey) env s image s')
    (shelved : s.db.Shelved) (locked : ∀ row ∈ s'.touched, row ∈ footprint) :
  Performs (.attachImage quotas workspaceId productId stored uploadKey) footprint s.db s'.db
  := by
  obtain ⟨⟨row, hrow, rfl⟩, room, _, fresh, _, rfl⟩ := ProductTx.returns_attach.mp h
  obtain ⟨_, rfl⟩ := Table.get_eq_some_iff.mp hrow
  let new := ProductTx.newImage env s row.workspaceId row.id stored uploadKey
  have numbered : Numbered (s.db.imagesOf new.productId) := (shelved.arranged row.id).numbered
  have images := Db.imagesOf_put numbered fresh rfl
  refine .rearrange rfl shelved (locked (.product row.id) (by simp)) hrow
    (.put (fun other => other rfl) fun image hi hid => ?_) ?_ ?_
  · exact absurd hid (Table.get_eq_none_iff.mp fresh image hi)
  · have few : (s.db.imagesOf row.id ++ [new]).length ≤ maxImagesPerProduct := by
      rw [List.length_append, List.length_singleton]
      exact room
    exact Eq.mpr (congrArg Arranged images) ⟨numbered.append rfl, few⟩
  · refine .addImage _ _ new (env.uuid7 s.ids) (env.clock s.ticks) rfl ?_
    have roomy : (s.db.withImages row).ensureRoomForImage = .ok () :=
      Product.ensureRoomForImage_eq_ok.mpr room
    show (Product.ensureRoomForImage _).bind _ = _
    rw [roomy]
    exact congrArg (fun images => Except.ok (({ row with images := images } : Product), new))
      images.symm

/-- The images of a product, or some of them, numbered again. -/
theorem Performs.renumber {work : Work} {row : ProductRow} {images : List ProductImage}
    (spans : work.Spans [row.id]) (shelved : s.db.Shelved) (locked : .product row.id ∈ footprint)
    (stored : s.db.products.get row.id = some row) (sub : images.Subperm (s.db.imagesOf row.id))
    (step : Product.Step work row.id (some (s.db.withImages row))
      (some { row with images := Product.renumber images })) :
  Performs work footprint s.db { s.db with
    images := savedImages s.db.images row.id (Product.renumber images) }
  := by
  have moved := Moved.of_subperm sub
  have numbered := Product.numbered_renumber images
  refine .rearrange spans shelved locked stored moved.same ?_ ?_
  · refine Eq.mpr (congrArg Arranged (moved.imagesOf numbered)) ⟨numbered, ?_⟩
    rw [Product.length_renumber]
    exact sub.length_le.trans (shelved.arranged row.id).few
  · have same := congrArg (fun images => some ({ row with images := images } : Product))
      (moved.imagesOf numbered)
    exact Eq.mpr (congrArg (Product.Step work row.id _) same) step

theorem performs_removeImage {workspaceId productId imageId : String} {image : ProductImage}
    (h : Returns (ProductTx.removeImage workspaceId productId imageId) env s image s')
    (shelved : s.db.Shelved) (locked : ∀ row ∈ s'.touched, row ∈ footprint) :
  Performs (.removeImage workspaceId productId imageId) footprint s.db s'.db
  := by
  obtain ⟨⟨row, stored, own⟩, hfound, rfl⟩ := ProductTx.returns_removeImage.mp h
  obtain ⟨_, rfl⟩ := Table.get_eq_some_iff.mp stored
  refine .renumber rfl shelved (locked (.product row.id) (by simp)) stored
    (List.erase_subperm _ _) (.removeImage _ _ image own ?_)
  unfold Product.removeImage
  rw [show (s.db.withImages row).images.find? _ = _ from hfound]
  rfl

theorem performs_reorderImages {workspaceId productId : String} {imageIds : List String}
    {product : Product}
    (h : Returns (ProductTx.reorderImages workspaceId productId imageIds) env s product s')
    (shelved : s.db.Shelved) (locked : ∀ row ∈ s'.touched, row ∈ footprint) :
  Performs (.reorderImages workspaceId productId imageIds) footprint s.db s'.db
  := by
  unfold ProductTx.reorderImages Products.saveImages at h
  simp only [returns_bind, ProductTx.returns_get, Tx.returns_check, Tx.returns_write,
    returns_pure] at h
  obtain ⟨old, _, ⟨hold, rfl⟩, product', _, ⟨made, rfl⟩, _, _, rfl, rfl, rfl⟩ := h
  obtain ⟨row, stored, own, rfl⟩ := Db.product_eq_some.mp hold
  obtain ⟨_, rfl⟩ := Table.get_eq_some_iff.mp stored
  have made' := made
  unfold Product.reorderImages at made'
  split at made'
  · cases made'
  · next ids =>
      obtain rfl := Except.ok.inj made'
      exact .renumber rfl shelved (locked (.product row.id) (by simp)) stored
        (ProductTx.perm_of_ids (not_not.mp ids)).subperm (.reorderImages _ _ own made)

/-- A transaction that leaves the products and their images alone. -/
theorem Performs.idle {work : Work} {db db' : Db} (spans : work.Spans []) (shelved : db.Shelved)
    (products : db'.products = db.products) (images : db'.images = db.images) :
  Performs work footprint db db'
  := by
  refine .intro [] spans nofun ⟨nofun, fun _ _ => by rw [products], fun _ _ => ?_⟩
    ⟨fun id => ?_, fun image hi => ?_⟩
  · rw [images]
    exact .refl _ _
  · rw [Db.imagesOf, images]
    exact shelved.arranged id
  · rw [products]
    exact shelved.owned image (images ▸ hi)

/-- Every transaction makes steps of the products that it acts on. -/
theorem Work.performs {work : Work} {u : Unit} (h : Returns work.body env s u s')
    (shelved : s.db.Shelved) (changed : ∀ row ∈ s.db.changed s'.db, row ∈ footprint)
    (locked : ∀ row ∈ s'.touched, row ∈ footprint) :
  Performs work footprint s.db s'.db
  := by
  by_cases on : work.OnProducts
  · cases work with
    | createProduct =>
        obtain ⟨_, h⟩ := Tx.returns_run'.mp h
        exact performs_create h shelved changed
    | updateProduct =>
        obtain ⟨_, h⟩ := Tx.returns_run'.mp h
        exact performs_update h shelved locked
    | deleteProduct =>
        obtain ⟨_, h⟩ := Tx.returns_run'.mp h
        exact performs_delete h shelved locked
    | attachImage =>
        obtain ⟨_, h⟩ := Tx.returns_run'.mp h
        exact performs_attach h shelved locked
    | removeImage =>
        obtain ⟨_, h⟩ := Tx.returns_run'.mp h
        exact performs_removeImage h shelved locked
    | reorderImages =>
        obtain ⟨_, h⟩ := Tx.returns_run'.mp h
        exact performs_reorderImages h shelved locked
    | deleteBatch =>
        obtain ⟨_, h⟩ := Tx.returns_run'.mp h
        exact performs_deleteBatch h shelved changed
    | purgeRows =>
        cases (Work.effect h).1 with
        | purgeNothing _ same => exact .idle rfl shelved (by rw [same]) (by rw [same])
        | purgeRows _ _ _ _ db => exact .idle rfl shelved (by rw [db]; rfl) (by rw [db]; rfl)
    | _ => exact on.elim
  · obtain ⟨products, images⟩ := (Work.effect h).1.same_products on
    refine .idle ?_ shelved products images
    cases work with
    | createProduct => exact absurd trivial on
    | updateProduct => exact absurd trivial on
    | deleteProduct => exact absurd trivial on
    | attachImage => exact absurd trivial on
    | removeImage => exact absurd trivial on
    | reorderImages => exact absurd trivial on
    | deleteBatch => exact absurd trivial on
    | _ => rfl

end Spec

/-! ### Overlapping -/

/-- What a transaction with a footprint leaves to the others: the rows that it changes are in the
footprint, and so are the products whose images it changes. -/
structure Guards (footprint : Set RowId) (db db' : Db) : Prop where
  changed : ∀ row ∈ db.changed db', row ∈ footprint
  images : ∀ id, .product id ∉ footprint → db.images.Same (·.productId = id) db'.images

section Overlap

variable {footprint other : Set RowId} {db db' db'' base final now : Db}

theorem Guards.refl (footprint : Set RowId) (db : Db) :
  Guards footprint db db
  where
  changed row hrow := by
    cases row with
    | _ => exact absurd rfl hrow
  images _ _ := .refl _ _

theorem Guards.trans (h : Guards footprint db db') (h' : Guards footprint db' db'') :
  Guards footprint db db''
  where
  changed row hrow := by
    rcases @Db.changed_trans db db' db'' row hrow with hrow | hrow
    · exact h.changed row hrow
    · exact h'.changed row hrow
  images id hout := (h.images id hout).trans (h'.images id hout)

theorem Guards.mono (h : Guards footprint db db') (sub : ∀ row ∈ footprint, row ∈ other) :
  Guards other db db'
  where
  changed row hrow := sub row (h.changed row hrow)
  images id hout := h.images id fun hin => hout (sub _ hin)

/-- What the others do meanwhile is outside of the footprint. -/
theorem Guards.meanwhile {P : Db → Prop} {τ : Type}
    (h : Meanwhile P (fun (_ : τ) => Guards) footprint db db') :
  Guards footprintᶜ db db'
  := by
  induction h with
  | refl => exact .refl _ _
  | tail _ step ih =>
      obtain ⟨_, _, _, other, guards, apart⟩ := step
      exact ih.trans (guards.mono fun row hrow hin => Set.disjoint_left.mp apart hin hrow)

/-- A step of the products commits as that step, whatever the others have done since the
snapshot. -/
theorem Performs.merge {work : Work} (h : Performs work footprint base final)
    (changed : ∀ row ∈ base.changed final, row ∈ footprint) (seen : Guards footprintᶜ base now)
    (current : now.Shelved) :
  (Db.merge base final now).Shelved ∧ Guards footprint now (Db.merge base final now)
    ∧ Shelf.Step work now.shelf (Db.merge base final now).shelf
  := by
  obtain ⟨ids, spans, steps, acts, shelved⟩ := h
  have products : ∀ id, (Db.merge base final now).products.get id
      = if final.products.get id = base.products.get id then now.products.get id
        else final.products.get id := fun _ => rfl
  -- The products that the transaction acts on are locked, so nobody has changed them meanwhile.
  have kept : ∀ id ∈ ids, now.products.get id = base.products.get id := by
    intro id hid
    by_contra hne
    exact seen.changed (.product id) hne (acts.locked id hid)
  have unseen : ∀ id ∈ ids, base.images.Same (·.productId = id) now.images :=
    fun id hid => seen.images id (not_not.mpr (acts.locked id hid))
  have apart : ∀ k,
      final.images.get k = base.images.get k ∨ now.images.get k = base.images.get k := by
    intro k
    by_contra hnot
    obtain ⟨h₁, h₂⟩ := not_or.mp hnot
    exact seen.changed (.image k) h₂ (changed (.image k) h₁)
  have row_in : ∀ id ∈ ids, (Db.merge base final now).products.get id = final.products.get id := by
    intro id hid
    rw [products, kept id hid]
    split
    · next same => exact same.symm
    · rfl
  have row_out : ∀ id ∉ ids, (Db.merge base final now).products.get id = now.products.get id :=
    fun id hid => (products id).trans (if_pos (acts.products id hid))
  have images_in : ∀ id ∈ ids,
      final.images.Same (·.productId = id) (Db.merge base final now).images :=
    fun id hid => (unseen id hid).merge_final
  have images_out : ∀ id ∉ ids,
      now.images.Same (·.productId = id) (Db.merge base final now).images :=
    fun id hid => (acts.images id hid).merge_current apart
  refine ⟨⟨fun id => ?_, fun image hi => ?_⟩, ⟨fun row hrow => changed row (Db.changed_merge hrow),
    fun id hout => images_out id fun hid => hout (acts.locked id hid)⟩,
    .intro ids spans (fun id hid => ?_) fun id hid => ?_⟩
  · by_cases hid : id ∈ ids
    · rw [Db.imagesOf_congr (images_in id hid)]
      exact shelved.arranged id
    · rw [Db.imagesOf_congr (images_out id hid)]
      exact current.arranged id
  · by_cases hid : image.productId ∈ ids
    · rw [row_in _ hid]
      exact shelved.owned image ((images_in _ hid image rfl).mp hi)
    · rw [row_out _ hid]
      exact current.owned image ((images_out _ hid image rfl).mp hi)
  · have before : now.shelf id = base.shelf id := Db.shelf_congr (kept id hid) (unseen id hid)
    have after := Db.shelf_congr (row_in id hid) (images_in id hid)
    rw [before, after]
    exact steps id hid
  · exact Db.shelf_congr (row_out id hid) (images_out id hid)

/-- One transaction, committed among others. -/
theorem Runs.performs {env : Env} {work : Work} (runs : Runs env work base final footprint)
    (shelved : base.Shelved) :
  Performs work footprint base final ∧ ∀ row ∈ base.changed final, row ∈ footprint
  := by
  obtain ⟨s, s', _, rfl, _, returns, rfl, rfl⟩ := runs
  have changed : ∀ row ∈ s.db.changed s'.db,
      row ∈ s.db.changed s'.db ∪ { row | row ∈ s'.touched } := fun _ hrow => Or.inl hrow
  exact ⟨Work.performs returns shelved changed fun _ hrow => Or.inr hrow, changed⟩

theorem Db.Shelved.empty :
  Db.empty.Shelved
  := ⟨fun _ => ⟨rfl, Nat.zero_le _⟩, nofun⟩

/-- However transactions overlap, the rows can be read back as products. -/
theorem history_shelved {env : Env} {init : Db} (start : init.Shelved)
    {commits : List (Commit Db RowId Work)} (history : History (system env) init commits) :
  (current init commits).Shelved
  := by
  refine (history.kept (G := fun _ => Guards) start ?_).current
  intro work base final footprint now hbase hnow runs meanwhile _
  obtain ⟨performs, changed⟩ := Runs.performs runs hbase
  obtain ⟨shelved, guards, _⟩ := performs.merge changed (.meanwhile meanwhile) hnow
  exact ⟨shelved, guards⟩

end Overlap

/-- The rows of every reachable session can be read back as products. -/
theorem Reachable.shelved {env : Env} {ok : Work → Prop} {s : Session} (h : Reachable env ok s) :
  s.db.Shelved
  := by
  obtain ⟨commits, history, same, _⟩ := h.history
  exact same ▸ history_shelved .empty history

/-! ### Serial executions -/

/-- However transactions overlap, the products that they leave are those that the same transactions
lead to on a shelf, one after the other, in the order of their commits. -/
theorem shelf_serial {env : Env} {ok : Work → Prop} {s : Session} (reachable : Reachable env ok s)
    {commits : List (Commit Db RowId Work)} (history : History (system env) s.db commits) :
  Serial Shelf.Step s.db.shelf (commits.map Commit.work) (current s.db commits).shelf
  := by
  refine history.serial Db.shelf (P := Db.Shelved) (G := fun _ => Guards) reachable.shelved ?_
  intro work base final footprint now hbase hnow runs meanwhile _
  obtain ⟨performs, changed⟩ := Runs.performs runs hbase
  exact performs.merge changed (.meanwhile meanwhile) hnow

/-- An image is attached to one product of Ada while another one gets a new price, and on the shelf
one happens after the other. -/
theorem shelf_serial_of_attach :
  ∃ (s : Session) (commits : List (Commit Db RowId Work)) (attach update : Work),
    ((current s.db commits).shelf "iiiiii").any (fun product => product.images.length = 1)
    ∧ ((current s.db commits).shelf "iiiiiii").any (fun product => product.price = 250)
    ∧ Serial Shelf.Step s.db.shelf [attach, update] (current s.db commits).shelf
  := by
  let attach : Work :=
    .attachImage ⟨2, 100⟩ "i" "iiiiii" ⟨"media/a", "media/b", "image/webp", 60⟩ "k"
  let update : Work := .updateProduct "i" "iiiiiii" ⟨none, none, some 250, none, none⟩ none
  let s := Session.after .sample [.register "ada" "ada@acme.test" "Ada" none,
    .create "Acme" "acme" "ada", .createProduct ⟨2, 100⟩ "i" "Pen" none 100 .active none,
    .createProduct ⟨2, 100⟩ "i" "Pad" none 100 .active none]
  let state := Db.merge s.db (attach.body.run .sample s).2.db (update.body.run .sample s).2.db
  have reachable : Reachable .sample (fun _ => True) s := .after fun _ _ => trivial
  have updates := Runs.of_run .sample update (Reachable.touched reachable) (by decide +kernel)
  have attaches := Runs.of_run .sample attach (Reachable.touched reachable) (by decide +kernel)
  have history : History (system .sample) s.db [⟨attach, _, state⟩, ⟨update, _, _⟩] :=
    .both Db.merge_base .start rfl updates attaches (Db.footprints_disjoint (by decide +kernel))
      (show Db.Unique _ by decide +kernel) (show Db.Unique state by decide +kernel)
  have pen : (state.shelf "iiiiii").any (fun product => product.images.length = 1) := by
    decide +kernel
  have pad : (state.shelf "iiiiiii").any (fun product => product.price = 250) := by
    decide +kernel
  refine ⟨s, _, attach, update, ?_, ?_, shelf_serial reachable history⟩
  · exact pen
  · exact pad

end MvpApi
