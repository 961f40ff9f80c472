import MvpApi.Runs.Steps

/-!
# What the transactions on products return

For each transaction on products and images, when it returns: what it has found, what it
gives back, and the session it leaves. The images of a product are read in the order of
their positions; as long as these are `0, 1, 2, ..` the list that was read or written can be
recovered from the rows.
-/

set_option autoImplicit false

namespace MvpApi

open Exec Tx

/-! ### The images of a product -/

/-- The positions of the images of a list are `0, 1, 2, ..`. -/
def Numbered (images : List ProductImage) : Prop :=
  images.map ProductImage.position = List.range images.length

theorem Product.numbered_renumber (images : List ProductImage) :
  Numbered (renumber images)
  := by
  refine List.ext_getElem (by simp [renumber]) fun i h₁ h₂ => ?_
  simp [renumber]

@[simp]
theorem Product.length_renumber (images : List ProductImage) :
  (renumber images).length = images.length
  := List.length_mapIdx

/-- Numbering images again does not change what does not depend on their positions. -/
theorem Product.map_renumber {α : Type} {f : ProductImage → α}
    (hf : ∀ image position, f { image with position := position } = f image)
    (images : List ProductImage) :
  (renumber images).map f = images.map f
  := by
  refine List.ext_getElem (by simp) fun i h₁ h₂ => ?_
  simp [renumber, hf]

/-- One more image, numbered with how many there are. -/
theorem Numbered.append {images : List ProductImage} {image : ProductImage}
    (h : Numbered images) (position : image.position = images.length) :
  Numbered (images ++ [image])
  := by
  rw [Numbered, List.map_append, h, List.map_singleton, position, List.length_append,
    List.length_singleton, List.range_succ]

theorem Numbered.nodup {images : List ProductImage} (h : Numbered images) :
  images.Nodup
  := by
  refine List.Nodup.of_map ProductImage.position ?_
  rw [h]
  exact List.nodup_range

/-- A list of images that is numbered is sorted. -/
theorem Numbered.sorted {images : List ProductImage} (h : Numbered images) :
  images.Pairwise fun image image' => image.position < image'.position
  := by
  have hrange : (images.map ProductImage.position).Pairwise (· < ·) := by
    rw [h]
    exact List.pairwise_lt_range
  exact List.pairwise_map.mp hrange

/-- Rows in any order, ordered by position, are the list that was numbered. -/
theorem Numbered.orderBy_eq {images rows : List ProductImage} (h : Numbered images)
    (perm : rows.Perm images) :
  orderBy ProductImage.position rows = images
  := by
  have sorted : (orderBy ProductImage.position rows).Perm images :=
    (List.perm_insertionSort _ _).trans perm
  refine sorted.eq_of_pairwise ?_ (List.pairwise_insertionSort _ _)
    (h.sorted.imp fun h => le_of_lt h)
  intro image image' hi hi' hle hle'
  have hmem := sorted.mem_iff.mp hi
  obtain ⟨i, hi, rfl⟩ := List.getElem_of_mem hmem
  obtain ⟨j, hj, rfl⟩ := List.getElem_of_mem hi'
  have position : ∀ (k : ℕ) (hk : k < images.length), images[k].position = k := by
    intro k hk
    have := congrArg (·[k]?) h
    simpa [hk] using this
  rw [position, position] at hle hle'
  obtain rfl : i = j := le_antisymm hle hle'
  rfl

/-- The images of a product are a list that is numbered and has the same elements. -/
theorem Db.imagesOf_eq {db : Db} {productId : String} {images : List ProductImage}
    (numbered : Numbered images)
    (mem : ∀ image, image ∈ images ↔ image ∈ db.images ∧ image.productId = productId) :
  db.imagesOf productId = images
  := by
  apply numbered.orderBy_eq
  rw [List.perm_ext_iff_of_nodup (db.images.nodup_rows.filter _) numbered.nodup]
  intro image
  rw [mem, List.mem_filter, Table.mem_rows, decide_eq_true_eq]

/-- The images of different ids. -/
theorem Db.nodup_ids_imagesOf (db : Db) (productId : String) :
  ((db.imagesOf productId).map ProductImage.id).Nodup
  := by
  refine ((List.perm_insertionSort _ _).map _).nodup_iff.mpr ?_
  refine List.Nodup.map_on ?_ (db.images.nodup_rows.filter _)
  intro image h image' h' hid
  rw [List.mem_filter, Table.mem_rows] at h h'
  exact Table.eq_of_key h.1 h'.1 hid

/-! ### Writing the images of a product -/

/-- The images, with those of a product replaced by the ones of a list. -/
def savedImages (images : Table ProductImage.id) (productId : String) (saved : List ProductImage) :
    Table ProductImage.id :=
  saved.foldl Table.put (images.filter (·.productId ≠ productId))

/-- The images of a list are images of a product, moved. -/
structure Moved (images : Table ProductImage.id) (productId : String) (saved : List ProductImage) :
    Prop where
  distinct : (saved.map ProductImage.id).Nodup
  moved : ∀ image ∈ saved, ∃ old ∈ images, old.productId = productId
    ∧ image = { old with position := image.position }

section Saved

variable {images : Table ProductImage.id} {productId : String} {saved : List ProductImage}

theorem Moved.of_product (h : Moved images productId saved) {image : ProductImage}
    (hi : image ∈ saved) :
  image.productId = productId
  := by
  obtain ⟨old, _, hof, hmoved⟩ := h.moved image hi
  rw [hmoved]
  exact hof

/-- The images of a product have ids that the others do not have. -/
theorem Moved.fresh (h : Moved images productId saved) :
  ∀ image ∈ saved, (images.filter (·.productId ≠ productId)).get image.id = none
  := by
  intro image hi
  obtain ⟨old, hold, hof, hmoved⟩ := h.moved image hi
  rw [Table.get_eq_none_iff]
  intro other hother hid
  obtain ⟨hstored, hne⟩ := Table.mem_filter.mp hother
  have hsame : other.id = old.id := by rw [hid, hmoved]
  obtain rfl := Table.eq_of_key hstored hold hsame
  simp [hof] at hne

/-- The images afterwards are those of the list, and those of other products. -/
theorem mem_savedImages (h : Moved images productId saved) {image : ProductImage} :
  image ∈ savedImages images productId saved
    ↔ image ∈ saved ∨ (image ∈ images ∧ image.productId ≠ productId)
  := by
  have key : ∀ {t : Table ProductImage.id} {l : List ProductImage},
      (l.map ProductImage.id).Nodup → (∀ image ∈ l, t.get image.id = none) →
        (image ∈ l.foldl Table.put t ↔ image ∈ l ∨ image ∈ t) := by
    intro t l
    induction l generalizing t with
    | nil => simp
    | cons first l ih =>
        intro distinct fresh
        obtain ⟨hnot, hdistinct⟩ := List.nodup_cons.mp distinct
        have fresh' : ∀ image ∈ l, (t.put first).get image.id = none := by
          intro other hother
          have hne : other.id ≠ first.id := fun h => hnot (h ▸ List.mem_map_of_mem hother)
          rw [Table.get_put_of_ne t hne]
          exact fresh other (List.mem_cons_of_mem first hother)
        rw [List.foldl_cons, ih hdistinct fresh',
          Table.mem_put_of_get (fresh first List.mem_cons_self), List.mem_cons]
        tauto
  rw [savedImages, key h.distinct h.fresh, Table.mem_filter, decide_eq_true_eq]

theorem Moved.sum {M : Type} [AddCommMonoid M] (h : Moved images productId saved)
    (f : ProductImage → M) :
  (savedImages images productId saved).sum f
    = (images.filter (·.productId ≠ productId)).sum f + (saved.map f).sum
  := Table.sum_foldl_put h.distinct h.fresh

/-- The images of other products stay. -/
theorem Moved.same (h : Moved images productId saved) :
  images.Same (·.productId ≠ productId) (savedImages images productId saved)
  := by
  intro image hne
  rw [mem_savedImages h]
  constructor
  · rintro (hi | ⟨hi, _⟩)
    · exact absurd (h.of_product hi) hne
    · exact hi
  · exact fun hi => Or.inr ⟨hi, hne⟩

/-- The images of the product are those of the list afterwards. -/
theorem Moved.imagesOf {db : Db} (h : Moved db.images productId saved) (numbered : Numbered saved) :
  { db with images := savedImages db.images productId saved }.imagesOf productId = saved
  := by
  refine Db.imagesOf_eq numbered fun image => ?_
  rw [mem_savedImages h]
  constructor
  · exact fun hi => ⟨Or.inl hi, h.of_product hi⟩
  · rintro ⟨hi | ⟨_, hne⟩, hof⟩
    · exact hi
    · exact absurd hof hne

end Saved

/-- The images of the products are the same where the images are. -/
theorem Db.imagesOf_congr {db db' : Db} {productId : String}
    (same : db.images.Same (·.productId = productId) db'.images) :
  db'.imagesOf productId = db.imagesOf productId
  := by
  rw [Db.imagesOf, Db.imagesOf, same.rows_filter]
  · exact fun _ _ h => of_decide_eq_true h
  · exact fun _ _ h => of_decide_eq_true h

/-- What the images of a product add up to. -/
theorem Db.sum_imagesOf {M : Type} [AddCommMonoid M] (db : Db) (productId : String)
    (f : ProductImage → M) :
  ((db.imagesOf productId).map f).sum = (db.images.filter (·.productId = productId)).sum f
  := by
  rw [← Table.sum_filter_rows]
  exact ((List.perm_insertionSort _ _).map f).sum_eq

/-- What all the images add up to, those of one product apart. -/
theorem Db.sum_images {M : Type} [AddCommMonoid M] (db : Db) (productId : String)
    (f : ProductImage → M) :
  (db.images.filter (·.productId ≠ productId)).sum f + ((db.imagesOf productId).map f).sum
    = db.images.sum f
  := by
  rw [Db.sum_imagesOf, add_comm,
    ← Table.sum_filter_add (t := db.images) (f := f) (·.productId = productId)]
  simp only [decide_not]

/-! ### What a workspace holds -/

/-- How many products a workspace has. -/
def Db.productCount (db : Db) (workspaceId : String) : ℕ :=
  (db.products.filter (·.workspaceId = workspaceId)).sum fun _ => 1

/-- How many bytes the images of a workspace take. -/
def Db.storageUsed (db : Db) (workspaceId : String) : ℕ :=
  (db.images.filter (·.workspaceId = workspaceId)).sum ProductImage.sizeBytes

section Returns

variable {env : Env} {s s' : Session}

@[simp]
theorem Products.returns_count {workspaceId : String} {n : ℕ} :
  Returns (Products.count workspaceId) env s n s'
    ↔ s.db.productCount workspaceId = n ∧ s = s'
  := by
  rw [Products.count, returns_select, Table.length_filter_rows]
  rfl

@[simp]
theorem Products.returns_storageBytes {workspaceId : String} {n : ℕ} :
  Returns (Products.storageBytes workspaceId) env s n s'
    ↔ s.db.storageUsed workspaceId = n ∧ s = s'
  := by
  rw [Products.storageBytes, returns_select, Table.sum_filter_rows]
  rfl

@[simp]
theorem ProductQuotas.ensureRoomForProduct_eq_ok {quotas : ProductQuotas} {owned : ℕ} {u : Unit} :
  quotas.ensureRoomForProduct owned = .ok u ↔ owned < quotas.maxProducts
  := by
  unfold ProductQuotas.ensureRoomForProduct
  split
  · next h => simp [not_lt.mpr h]
  · next h => simp [not_le.mp h]

@[simp]
theorem ProductQuotas.ensureRoomForBytes_eq_ok {quotas : ProductQuotas} {used incoming : ℕ}
    {u : Unit} :
  quotas.ensureRoomForBytes used incoming = .ok u ↔ used + incoming ≤ quotas.maxStorageBytes
  := by
  unfold ProductQuotas.ensureRoomForBytes
  split
  · next h => simp [not_le.mpr h]
  · next h => simp [not_lt.mp h]

@[simp]
theorem ensureRoomForImageCount_eq_ok {count : ℕ} {u : Unit} :
  ensureRoomForImageCount count = .ok u ↔ count < maxImagesPerProduct
  := by
  unfold ensureRoomForImageCount
  split
  · next h => simp [not_lt.mpr h]
  · next h => simp [not_le.mp h]

@[simp]
theorem Product.ensureRoomForImage_eq_ok {product : Product} {u : Unit} :
  product.ensureRoomForImage = .ok u ↔ product.images.length < maxImagesPerProduct
  := ensureRoomForImageCount_eq_ok

/-! ### The transactions -/

namespace ProductTx

/-- Whether or not the workspace exists, its quota is checked. -/
@[simp]
theorem returns_lockQuota {workspaceId : String} {u : Unit} :
  Returns (lockQuota workspaceId) env s u s'
    ↔ s.touch (if (s.db.live workspaceId).isSome then [.workspace workspaceId] else []) = s'
  := by
  unfold lockQuota Workspaces.lock Workspaces.get
  simp

@[simp]
theorem returns_get {workspaceId productId : String} {product : Product} :
  Returns (get workspaceId productId) env s product s'
    ↔ s.db.product workspaceId productId = some product
      ∧ s.touch [.product productId] = s'
  := Tx.returns_found

/-- The row of a new product. -/
def newRow (env : Env) (s : Session) (workspaceId name : String) (sku : Option String)
    (price : Price) (status : ProductStatus) (description : Option String) : ProductRow :=
  ⟨env.uuid7 s.ids, workspaceId, name, sku, price, status, description, env.clock s.ticks,
    env.clock s.ticks⟩

/-- A product is created under the limit of the workspace, which is locked if it is live. -/
theorem returns_create {quotas : ProductQuotas} {workspaceId name : String} {sku : Option String}
    {price : Price} {status : ProductStatus} {description : Option String} {product : Product} :
  Returns (create quotas workspaceId name sku price status description) env s product s'
    ↔ s.db.productCount workspaceId < quotas.maxProducts
      ∧ (name ≠ "" ∧ 0 ≤ price)
      ∧ s.db.products.get (env.uuid7 s.ids) = none
      ∧ { newRow env s workspaceId name sku price status description with images := [] } = product
      ∧ ((s.touch (if (s.db.live workspaceId).isSome then [.workspace workspaceId] else
          [])).tick.nextId.write fun db => { db with
            products := db.products.put
              (newRow env s workspaceId name sku price status description) }) = s'
  := by
  unfold create Product.create
  simp only [returns_bind, returns_lockQuota, Products.returns_count, returns_check, returns_now,
    ProductQuotas.ensureRoomForProduct_eq_ok, returns_newId, Except.bind_eq_ok, Except.pure_eq_ok,
    Product.checkInvariants_eq_ok,
    Products.returns_add, returns_pure]
  constructor
  · rintro ⟨_, _, rfl, _, _, ⟨rfl, rfl⟩, _, _, ⟨hroom, rfl⟩, _, _, ⟨rfl, rfl⟩, _, _, ⟨rfl, rfl⟩, h⟩
    obtain ⟨_, _, ⟨⟨_, hvalid, rfl⟩, rfl⟩, _, _, ⟨hfresh, rfl⟩, rfl, rfl⟩ := h
    exact ⟨hroom, hvalid, hfresh, rfl, rfl⟩
  · rintro ⟨hroom, hvalid, hfresh, rfl, rfl⟩
    exact ⟨(), _, rfl, _, _, ⟨rfl, rfl⟩, (), _, ⟨hroom, rfl⟩, _, _, ⟨rfl, rfl⟩, _, _, ⟨rfl, rfl⟩,
      _, _, ⟨⟨(), hvalid, rfl⟩, rfl⟩, (), _, ⟨hfresh, rfl⟩, rfl, rfl⟩

/-- The row with the fields of a partial update set. -/
def edited (row : ProductRow) (changes : ProductChanges) : ProductRow :=
  { row with
    name := changes.name.getD row.name
    sku := changes.sku.getD row.sku
    price := changes.price.getD row.price
    status := changes.status.getD row.status
    description := changes.description.getD row.description }

/-- A partial update is one of the row. -/
theorem apply_withImages (db : Db) (row : ProductRow) (changes : ProductChanges) :
  (db.withImages row).apply changes = db.withImages (edited row changes)
  := rfl

theorem withImages_inj {db : Db} {row row' : ProductRow} :
  db.withImages row = db.withImages row' ↔ row = row'
  := by
  constructor
  · exact fun h => congrArg Product.toProductRow h
  · rintro rfl
    rfl

@[simp]
theorem ensureUnchangedSince_eq_ok {product : Product} {version : Option Time} {u : Unit} :
  product.ensureUnchangedSince version = .ok u ↔ ∀ v, version = some v → v = product.updatedAt
  := by
  cases version with
  | none => simp [Product.ensureUnchangedSince]
  | some v =>
      by_cases h : v = product.updatedAt
      · simp [Product.ensureUnchangedSince, h]
      · simp [Product.ensureUnchangedSince, h]

/-- An update checks the version and locks the row; it reads the clock and writes the row if a
field changes. -/
theorem returns_update {workspaceId productId : String} {changes : ProductChanges}
    {ifMatch : Option Time} {product : Product} :
  Returns (update workspaceId productId changes ifMatch) env s product s'
    ↔ ∃ row, s.db.products.get productId = some row ∧ row.workspaceId = workspaceId
      ∧ (∀ v, ifMatch = some v → v = row.updatedAt)
      ∧ ((edited row changes = row ∧ s.db.withImages row = product
          ∧ s.touch [.product productId] = s')
        ∨ (edited row changes ≠ row
          ∧ ((edited row changes).name ≠ "" ∧ 0 ≤ (edited row changes).price)
          ∧ s.db.withImages { edited row changes with updatedAt := env.clock s.ticks } = product
          ∧ ((s.touch [.product productId]).tick.write fun db => { db with
              products := db.products.put
                { edited row changes with updatedAt := env.clock s.ticks } }) = s'))
  := by
  unfold update Products.save
  simp only [returns_bind, returns_get, returns_check, ensureUnchangedSince_eq_ok]
  constructor
  · rintro ⟨old, _, ⟨hold, rfl⟩, _, _, ⟨hmatch, rfl⟩, h⟩
    obtain ⟨row, hrow, hown, rfl⟩ := Db.product_eq_some.mp hold
    refine ⟨row, hrow, hown, hmatch, ?_⟩
    simp only [apply_withImages, withImages_inj] at h
    split at h
    · next hsame =>
        simp only [returns_bind, returns_pure, returns_write] at h
        obtain ⟨_, _, ⟨rfl, rfl⟩, _, _, rfl, rfl, rfl⟩ := h
        refine Or.inl ⟨hsame, rfl, (Session.write_self ?_).symm⟩
        have hput : s.db.products.put row = s.db.products :=
          Table.put_of_mem (Table.get_eq_some_iff.mp hrow).1
        exact congrArg (fun products => { s.db with products := products }) hput
    · next hchanged =>
        simp only [returns_bind, returns_check, Product.checkInvariants_eq_ok, returns_now,
          returns_pure, returns_write] at h
        obtain ⟨_, _, ⟨hvalid, rfl⟩, _, _, ⟨rfl, rfl⟩, _, _, ⟨rfl, rfl⟩, _, _, rfl, rfl, rfl⟩ := h
        exact Or.inr ⟨hchanged, hvalid, rfl, rfl⟩
  · rintro ⟨row, hrow, hown, hmatch, h⟩
    refine ⟨s.db.withImages row, _, ⟨Db.product_eq_some.mpr ⟨row, hrow, hown, rfl⟩, rfl⟩, (), _,
      ⟨hmatch, rfl⟩, ?_⟩
    simp only [apply_withImages, withImages_inj]
    rcases h with ⟨hsame, rfl, rfl⟩ | ⟨hchanged, hvalid, rfl, rfl⟩
    · rw [if_pos hsame]
      simp only [returns_bind, returns_pure, returns_write]
      refine ⟨_, _, ⟨rfl, rfl⟩, (), _, rfl, rfl, Session.write_self ?_⟩
      have hput : s.db.products.put row = s.db.products :=
        Table.put_of_mem (Table.get_eq_some_iff.mp hrow).1
      exact congrArg (fun products => { s.db with products := products }) hput
    · rw [if_neg hchanged]
      simp only [returns_bind, returns_check, Product.checkInvariants_eq_ok, returns_now,
        returns_pure, returns_write]
      exact ⟨(), _, ⟨hvalid, rfl⟩, _, _, ⟨rfl, rfl⟩, _, _, ⟨rfl, rfl⟩, (), _, rfl, rfl, rfl⟩

/-- Deleting a product deletes its images with it. -/
theorem returns_delete {workspaceId productId : String} {product : Product} :
  Returns (delete workspaceId productId) env s product s'
    ↔ ∃ row, s.db.products.get productId = some row ∧ row.workspaceId = workspaceId
      ∧ s.db.withImages row = product
      ∧ ((s.touch [.product productId]).write fun db => { db with
          images := db.images.filter (·.productId ≠ productId)
          products := db.products.erase productId }) = s'
  := by
  unfold delete Products.delete
  simp only [returns_bind, returns_get, returns_write, returns_pure]
  constructor
  · rintro ⟨old, _, ⟨hold, rfl⟩, _, _, rfl, rfl, rfl⟩
    obtain ⟨row, hrow, hown, rfl⟩ := Db.product_eq_some.mp hold
    obtain rfl : row.id = productId := (Table.get_eq_some_iff.mp hrow).2
    exact ⟨row, hrow, hown, rfl, rfl⟩
  · rintro ⟨row, hrow, hown, rfl, rfl⟩
    obtain rfl : row.id = productId := (Table.get_eq_some_iff.mp hrow).2
    exact ⟨_, _, ⟨Db.product_eq_some.mpr ⟨row, hrow, hown, rfl⟩, rfl⟩, (), _, rfl, rfl, rfl⟩

/-- The row of a new image of a product. -/
def newImage (env : Env) (s : Session) (workspaceId productId : String) (stored : StoredImage)
    (uploadKey : String) : ProductImage where
  id := env.uuid7 s.ids
  productId := productId
  workspaceId := workspaceId
  key := stored.key
  thumbKey := some stored.thumbKey
  uploadKey := some uploadKey
  contentType := stored.contentType
  sizeBytes := stored.sizeBytes
  position := (s.db.imagesOf productId).length
  createdAt := env.clock s.ticks

/-- An image is attached under the limits of the product and of the workspace, at the end. -/
theorem returns_attach {quotas : ProductQuotas} {workspaceId productId uploadKey : String}
    {stored : StoredImage} {image : ProductImage} :
  Returns (attach quotas workspaceId productId stored uploadKey) env s image s'
    ↔ (∃ row, s.db.products.get productId = some row ∧ row.workspaceId = workspaceId)
      ∧ (s.db.imagesOf productId).length < maxImagesPerProduct
      ∧ s.db.storageUsed workspaceId + stored.sizeBytes ≤ quotas.maxStorageBytes
      ∧ s.db.images.get (env.uuid7 s.ids) = none
      ∧ newImage env s workspaceId productId stored uploadKey = image
      ∧ (((s.touch (if (s.db.live workspaceId).isSome then [.workspace workspaceId] else
          [])).touch [.product productId]).nextId.tick.write fun db => { db with
            images := db.images.put
              (newImage env s workspaceId productId stored uploadKey) }) = s'
  := by
  unfold attach Product.addImage
  simp only [returns_bind, returns_lockQuota, returns_get, Products.returns_storageBytes,
    returns_check, Product.ensureRoomForImage_eq_ok, ProductQuotas.ensureRoomForBytes_eq_ok,
    returns_now, returns_newId, Except.bind_eq_ok, Except.pure_eq_ok, Products.returns_addImage,
    returns_pure]
  constructor
  · rintro ⟨_, _, rfl, old, _, ⟨hold, rfl⟩, _, _, ⟨hroom, rfl⟩, h⟩
    obtain ⟨_, _, ⟨rfl, rfl⟩, _, _, ⟨hbytes, rfl⟩, _, _, ⟨rfl, rfl⟩, _, _, ⟨rfl, rfl⟩, h⟩ := h
    obtain ⟨_, _, ⟨⟨_, _, rfl⟩, rfl⟩, _, _, ⟨hfresh, rfl⟩, rfl, rfl⟩ := h
    obtain ⟨row, hrow, hown, rfl⟩ := Db.product_eq_some.mp hold
    obtain rfl : row.id = productId := (Table.get_eq_some_iff.mp hrow).2
    subst hown
    exact ⟨⟨row, hrow, rfl⟩, hroom, hbytes, hfresh, rfl, rfl⟩
  · rintro ⟨⟨row, hrow, rfl⟩, hroom, hbytes, hfresh, rfl, rfl⟩
    obtain rfl : row.id = productId := (Table.get_eq_some_iff.mp hrow).2
    exact ⟨(), _, rfl, s.db.withImages row, _, ⟨Db.product_eq_some.mpr ⟨row, hrow, rfl, rfl⟩, rfl⟩,
      (), _, ⟨hroom, rfl⟩, _, _, ⟨rfl, rfl⟩, (), _, ⟨hbytes, rfl⟩, _, _, ⟨rfl, rfl⟩, _, _,
      ⟨rfl, rfl⟩, _, _, ⟨⟨(), hroom, rfl⟩, rfl⟩, (), _, ⟨hfresh, rfl⟩, rfl, rfl⟩

/-- The images that stay when one is removed are numbered again. -/
theorem returns_removeImage {workspaceId productId imageId : String} {image : ProductImage} :
  Returns (removeImage workspaceId productId imageId) env s image s'
    ↔ (∃ row, s.db.products.get productId = some row ∧ row.workspaceId = workspaceId)
      ∧ (s.db.imagesOf productId).find? (·.id = imageId) = some image
      ∧ ((s.touch [.product productId]).write fun db => { db with
          images := savedImages db.images productId
            (Product.renumber ((s.db.imagesOf productId).erase image)) }) = s'
  := by
  unfold removeImage Products.saveImages Product.removeImage
  simp only [returns_bind, returns_get, returns_check, Except.bind_eq_ok, found_eq_ok,
    Except.pure_eq_ok, returns_write, returns_pure]
  constructor
  · rintro ⟨old, _, ⟨hold, rfl⟩, _, _, ⟨⟨removed, hfound, rfl⟩, rfl⟩, _, _, rfl, rfl, rfl⟩
    obtain ⟨row, hrow, hown, rfl⟩ := Db.product_eq_some.mp hold
    obtain rfl : row.id = productId := (Table.get_eq_some_iff.mp hrow).2
    exact ⟨⟨row, hrow, hown⟩, hfound, rfl⟩
  · rintro ⟨⟨row, hrow, hown⟩, hfound, rfl⟩
    obtain rfl : row.id = productId := (Table.get_eq_some_iff.mp hrow).2
    exact ⟨s.db.withImages row, _, ⟨Db.product_eq_some.mpr ⟨row, hrow, hown, rfl⟩, rfl⟩, _, _,
      ⟨⟨image, hfound, rfl⟩, rfl⟩, (), _, rfl, rfl, rfl⟩

/-- The images in their new order are those of the product, each once. -/
theorem perm_of_ids {db : Db} {row : ProductRow} {imageIds : List String}
    (h : imageIds.insertionSort (· ≤ ·)
      = ((db.imagesOf row.id).map ProductImage.id).dedup.insertionSort (· ≤ ·)) :
  (imageIds.filterMap (db.withImages row).byId).Perm (db.imagesOf row.id)
  := by
  have distinct : ((db.withImages row).images.map ProductImage.id).Nodup :=
    db.nodup_ids_imagesOf row.id
  have perm := (Product.sorted_eq_iff distinct).mp h
  exact (perm.filterMap _).trans (.of_eq (Product.filterMap_byId distinct fun _ hi => hi))

/-- The images are numbered again in the order asked for. -/
theorem returns_reorderImages {workspaceId productId : String} {imageIds : List String}
    {product : Product}
    (h : Returns (reorderImages workspaceId productId imageIds) env s product s') :
  (∃ row, s.db.products.get productId = some row ∧ row.workspaceId = workspaceId)
    ∧ ∃ images : List ProductImage, images.Perm (s.db.imagesOf productId)
      ∧ ((s.touch [.product productId]).write fun db => { db with
          images := savedImages db.images productId (Product.renumber images) }) = s'
  := by
  unfold reorderImages Products.saveImages at h
  simp only [returns_bind, returns_get, returns_check, returns_write, returns_pure] at h
  obtain ⟨old, _, ⟨hold, rfl⟩, _, _, ⟨hreorder, rfl⟩, _, _, rfl, _, rfl⟩ := h
  obtain ⟨row, hrow, hown, rfl⟩ := Db.product_eq_some.mp hold
  obtain rfl : row.id = productId := (Table.get_eq_some_iff.mp hrow).2
  unfold Product.reorderImages at hreorder
  split at hreorder
  · cases hreorder
  · next hids =>
      obtain rfl := Except.ok.inj hreorder
      exact ⟨⟨row, hrow, hown⟩, _, perm_of_ids (not_not.mp hids), rfl⟩

end ProductTx

end Returns

/-! ### Moving images -/

/-- Images of a product, each at most once, numbered again. -/
theorem Moved.of_subperm {db : Db} {productId : String} {images : List ProductImage}
    (h : images.Subperm (db.imagesOf productId)) :
  Moved db.images productId (Product.renumber images)
  where
  distinct := by
    rw [Product.map_renumber fun _ _ => rfl]
    obtain ⟨l, hperm, hsub⟩ := h
    exact (hperm.map _).nodup_iff.mp ((hsub.map _).nodup (db.nodup_ids_imagesOf productId))
  moved image hi := by
    obtain ⟨old, hold, hmoved⟩ := Product.mem_renumber hi
    obtain ⟨hstored, hof⟩ := Db.mem_imagesOf.mp (h.subset hold)
    exact ⟨old, hstored, hof, hmoved⟩

end MvpApi
