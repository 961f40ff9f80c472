import MvpApi.Runs.Images

/-!
# Quotas

A workspace has a limit on its products and on the bytes of their images, and a product on
its images. Each transaction that adds checks the limit again under the lock of what it is
a limit of, and the others lower what counts. `Restrained` says so of one transaction,
whatever its snapshot. When transactions overlap, what a transaction that holds the lock has
counted can have become less by its commit, but not more, and what one without it has taken
away is taken away from what is there by then.
-/

set_option autoImplicit false

namespace MvpApi

open Optimistic Exec

/-! ### Limits -/

/-- The transactions run under the limits that are configured. -/
def Work.Under (quotas : ProductQuotas) : Work → Prop
  | .createProduct quotas' _ _ _ _ _ _ => quotas' = quotas
  | .attachImage quotas' _ _ _ _ => quotas' = quotas
  | _ => True

/-- A workspace is within its limits. -/
structure Db.Within (db : Db) (quotas : ProductQuotas) (workspaceId : String) : Prop where
  products : (db.products.rows.filter (·.workspaceId = workspaceId)).length ≤ quotas.maxProducts
  bytes : ((db.images.rows.filter (·.workspaceId = workspaceId)).map ProductImage.sizeBytes).sum
    ≤ quotas.maxStorageBytes

theorem Db.within_iff {db : Db} {quotas : ProductQuotas} {workspaceId : String} :
  db.Within quotas workspaceId
    ↔ db.productCount workspaceId ≤ quotas.maxProducts
      ∧ db.storageUsed workspaceId ≤ quotas.maxStorageBytes
  := by
  constructor
  · rintro ⟨hp, hb⟩
    rw [Table.length_filter_rows] at hp
    rw [Table.sum_filter_rows] at hb
    exact ⟨hp, hb⟩
  · rintro ⟨hp, hb⟩
    refine ⟨?_, ?_⟩
    · rw [Table.length_filter_rows]
      exact hp
    · rw [Table.sum_filter_rows]
      exact hb

/-- The images of a product are numbered, and not more than a product can have. -/
structure Arranged (images : List ProductImage) : Prop where
  numbered : Numbered images
  few : images.length ≤ maxImagesPerProduct

/-! ### What one transaction does -/

/-- What a transaction with a footprint does to what counts. A workspace has no more than
before, or is within the limit and locked if it is live; a product has the images it had, or is
locked and its images are arranged. -/
structure Restrained (quotas : ProductQuotas) (footprint : Set RowId) (db db' : Db) : Prop where
  products : ∀ w, db'.productCount w ≤ db.productCount w
    ∨ (db'.productCount w ≤ quotas.maxProducts
      ∧ ((db.live w).isSome → .workspace w ∈ footprint))
  bytes : ∀ w, db'.storageUsed w ≤ db.storageUsed w
    ∨ (db'.storageUsed w ≤ quotas.maxStorageBytes
      ∧ ((db.live w).isSome → .workspace w ∈ footprint))
  images : ∀ p, db.images.Same (·.productId = p) db'.images
    ∨ (.product p ∈ footprint ∧ Arranged (db'.imagesOf p))

section Counts

variable {db : Db} {w : String}

theorem Db.productCount_eq (db : Db) (w : String) :
  db.productCount w = db.products.sum fun row => if row.workspaceId = w then 1 else 0
  := by
  rw [Db.productCount, Table.sum_filter]
  simp only [decide_eq_true_eq]

theorem Db.storageUsed_eq (db : Db) (w : String) :
  db.storageUsed w = db.images.sum fun image => if image.workspaceId = w then image.sizeBytes else 0
  := by
  rw [Db.storageUsed, Table.sum_filter]
  simp only [decide_eq_true_eq]

/-- Keeping some rows lowers a sum. -/
theorem Table.sum_filter_le {κ ρ : Type} {key : ρ → κ} (t : Table key) (p : ρ → Bool)
    (f : ρ → ℕ) :
  (t.filter p).sum f ≤ t.sum f
  := by
  rw [← Table.sum_filter_add (t := t) (f := f) p]
  exact Nat.le_add_right _ _

theorem Db.productCount_filter_le (p : ProductRow → Bool) :
  { db with products := db.products.filter p }.productCount w ≤ db.productCount w
  := by
  rw [Db.productCount_eq, Db.productCount_eq]
  exact Table.sum_filter_le _ _ _

theorem Db.storageUsed_filter_le (p : ProductImage → Bool) :
  { db with images := db.images.filter p }.storageUsed w ≤ db.storageUsed w
  := by
  rw [Db.storageUsed_eq, Db.storageUsed_eq]
  exact Table.sum_filter_le _ _ _

/-- The images of a product that were moved are as large as before. -/
theorem Db.storageUsed_saved_le {productId : String} {images : List ProductImage}
    (h : images.Subperm (db.imagesOf productId)) :
  { db with images := savedImages db.images productId (Product.renumber images) }.storageUsed w
    ≤ db.storageUsed w
  := by
  rw [Db.storageUsed_eq, Db.storageUsed_eq, (Moved.of_subperm h).sum,
    Product.map_renumber fun _ _ => rfl, ← db.sum_images productId]
  obtain ⟨l, hperm, hsub⟩ := h
  rw [← (hperm.map _).sum_eq]
  exact Nat.add_le_add_left ((hsub.map _).sum_le_sum fun _ _ => Nat.zero_le _) _

end Counts

section Spec

variable {quotas : ProductQuotas} {env : Env} {s s' : Session} {footprint : Set RowId}

/-- Nothing that counts is changed. -/
theorem Restrained.same {db db' : Db} (products : db'.products = db.products)
    (images : db'.images = db.images) :
  Restrained quotas footprint db db'
  where
  products w := Or.inl (by rw [Db.productCount, products]; exact le_refl _)
  bytes w := Or.inl (by rw [Db.storageUsed, images]; exact le_refl _)
  images p := Or.inl (by rw [images]; exact .refl _ _)

/-- The images of a locked product, or some of them, are numbered again. -/
theorem Restrained.rearrange {db : Db} {productId : String} {images : List ProductImage}
    (h : images.Subperm (db.imagesOf productId))
    (few : (db.imagesOf productId).length ≤ maxImagesPerProduct)
    (locked : .product productId ∈ footprint) :
  Restrained quotas footprint db
    { db with images := savedImages db.images productId (Product.renumber images) }
  where
  products _ := Or.inl (le_refl _)
  bytes _ := Or.inl (Db.storageUsed_saved_le h)
  images p := by
    by_cases hp : p = productId
    · subst hp
      refine Or.inr ⟨locked, ?_⟩
      rw [(Moved.of_subperm h).imagesOf (Product.numbered_renumber images)]
      refine ⟨Product.numbered_renumber images, ?_⟩
      rw [Product.length_renumber]
      exact h.length_le.trans few
    · exact Or.inl ((Moved.of_subperm h).same.mono fun image hi => hi ▸ hp)

/-- Locked products go with their images. -/
theorem Restrained.discard {db db' : Db} (gone : String → Bool)
    (images : db'.images = db.images.filter fun image => !gone image.productId)
    (fewer : ∀ w, db'.productCount w ≤ db.productCount w)
    (locked : ∀ p, gone p = true → .product p ∈ footprint) :
  Restrained quotas footprint db db'
  where
  products w := Or.inl (fewer w)
  bytes w := by
    rw [Db.storageUsed, images]
    exact Or.inl (Db.storageUsed_filter_le _)
  images p := by
    cases hp : gone p with
    | true =>
        have none : db'.imagesOf p = [] := by
          rw [List.eq_nil_iff_forall_not_mem]
          intro image hi
          obtain ⟨hi, hof⟩ := Db.mem_imagesOf.mp hi
          rw [images, Table.mem_filter, hof, hp] at hi
          cases hi.2
        rw [none]
        exact Or.inr ⟨locked p hp, rfl, Nat.zero_le _⟩
    | false =>
        rw [images]
        refine Or.inl (.filter fun image _ hof => ?_)
        rw [hof, hp]
        rfl

theorem restrained_create {workspaceId name : String} {sku : Option String} {price : Price}
    {status : ProductStatus} {description : Option String} {product : Product}
    (h : Returns (ProductTx.create quotas workspaceId name sku price status description) env s
      product s') (locked : ∀ row ∈ s'.touched, row ∈ footprint) :
  Restrained quotas footprint s.db s'.db
  := by
  obtain ⟨hroom, _, hfresh, _, rfl⟩ := ProductTx.returns_create.mp h
  refine ⟨fun w => ?_, fun w => Or.inl (le_refl _), fun p => Or.inl (.refl _ _)⟩
  have hput := Table.sum_put_of_get (f := fun row => if row.workspaceId = w then 1 else 0)
    (r := ProductTx.newRow env s workspaceId name sku price status description) hfresh
  by_cases hw : workspaceId = w
  · subst hw
    refine Or.inr ⟨?_, fun hlive => locked _ ?_⟩
    · rw [Db.productCount_eq]
      refine (le_of_eq hput).trans ?_
      rw [← Db.productCount_eq, ProductTx.newRow, if_pos rfl]
      exact hroom
    · simp [hlive]
  · refine Or.inl ?_
    rw [Db.productCount_eq, Db.productCount_eq]
    refine (le_of_eq hput).trans ?_
    simp [ProductTx.newRow, hw]

theorem restrained_update {workspaceId productId : String} {changes : ProductChanges}
    {ifMatch : Option Time} {product : Product}
    (h : Returns (ProductTx.update workspaceId productId changes ifMatch) env s product s') :
  Restrained quotas footprint s.db s'.db
  := by
  obtain ⟨row, hrow, _, _, ⟨_, _, rfl⟩ | ⟨_, _, _, rfl⟩⟩ := ProductTx.returns_update.mp h
  · exact .same rfl rfl
  · refine ⟨fun w => Or.inl ?_, fun w => Or.inl (le_refl _), fun p => Or.inl (.refl _ _)⟩
    obtain rfl : row.id = productId := (Table.get_eq_some_iff.mp hrow).2
    have hput := Table.sum_put (t := s.db.products)
      (f := fun row => if row.workspaceId = w then 1 else 0)
      { ProductTx.edited row changes with updatedAt := env.clock s.ticks }
    have hold : s.db.products.get (ProductTx.edited row changes).id = some row := hrow
    simp only [hold, Option.elim_some] at hput
    rw [Db.productCount_eq, Db.productCount_eq]
    exact le_of_eq (Nat.add_right_cancel hput)

theorem restrained_delete {workspaceId productId : String} {product : Product}
    (h : Returns (ProductTx.delete workspaceId productId) env s product s')
    (locked : ∀ row ∈ s'.touched, row ∈ footprint) :
  Restrained quotas footprint s.db s'.db
  := by
  obtain ⟨row, hrow, _, _, rfl⟩ := ProductTx.returns_delete.mp h
  refine .discard (fun p => p = productId) ?_ (fun w => ?_) fun p hp => locked _ ?_
  · exact congrArg s.db.images.filter (funext fun image => decide_not)
  · rw [Db.productCount_eq, Db.productCount_eq,
      ← Table.sum_erase (t := s.db.products) productId]
    exact Nat.le_add_right _ _
  · simp [of_decide_eq_true hp]

theorem restrained_attach {workspaceId productId uploadKey : String} {stored : StoredImage}
    {image : ProductImage}
    (h : Returns (ProductTx.attach quotas workspaceId productId stored uploadKey) env s image s')
    (numbered : Numbered (s.db.imagesOf productId))
    (locked : ∀ row ∈ s'.touched, row ∈ footprint) :
  Restrained quotas footprint s.db s'.db
  := by
  obtain ⟨_, hroom, hbytes, hfresh, _, rfl⟩ := ProductTx.returns_attach.mp h
  let new := ProductTx.newImage env s workspaceId productId stored uploadKey
  refine ⟨fun w => Or.inl (le_refl _), fun w => ?_, fun p => ?_⟩
  · have hput := Table.sum_put_of_get (r := new)
      (f := fun image => if image.workspaceId = w then image.sizeBytes else 0) hfresh
    by_cases hw : workspaceId = w
    · subst hw
      refine Or.inr ⟨?_, fun hlive => locked _ ?_⟩
      · rw [Db.storageUsed_eq]
        refine (le_of_eq hput).trans ?_
        rw [← Db.storageUsed_eq]
        simpa [new, ProductTx.newImage] using hbytes
      · simp [hlive]
    · refine Or.inl ?_
      rw [Db.storageUsed_eq, Db.storageUsed_eq]
      refine (le_of_eq hput).trans ?_
      simp [new, ProductTx.newImage, hw]
  · by_cases hp : p = productId
    · subst hp
      refine Or.inr ⟨locked _ (by simp), ?_⟩
      have hnumbered : Numbered (s.db.imagesOf p ++ [new]) := numbered.append rfl
      have himages : { s.db with images := s.db.images.put new }.imagesOf p
          = s.db.imagesOf p ++ [new] := by
        refine Db.imagesOf_eq hnumbered fun image => ?_
        rw [Table.mem_put_of_get hfresh, List.mem_append, Db.mem_imagesOf, List.mem_singleton]
        constructor
        · rintro (⟨hi, hof⟩ | rfl)
          · exact ⟨Or.inr hi, hof⟩
          · exact ⟨Or.inl rfl, rfl⟩
        · rintro ⟨rfl | hi, hof⟩
          · exact Or.inr rfl
          · exact Or.inl ⟨hi, hof⟩
      have hfew : (s.db.imagesOf p ++ [new]).length ≤ maxImagesPerProduct := by
        rw [List.length_append, List.length_singleton]
        exact hroom
      exact ⟨himages ▸ hnumbered, himages ▸ hfew⟩
    · refine Or.inl (.put (fun hof => hp hof.symm) fun image hi hid => ?_)
      exact absurd hid (Table.get_eq_none_iff.mp hfresh image hi)

theorem restrained_removeImage {workspaceId productId imageId : String} {image : ProductImage}
    (h : Returns (ProductTx.removeImage workspaceId productId imageId) env s image s')
    (few : (s.db.imagesOf productId).length ≤ maxImagesPerProduct)
    (locked : ∀ row ∈ s'.touched, row ∈ footprint) :
  Restrained quotas footprint s.db s'.db
  := by
  obtain ⟨_, _, rfl⟩ := ProductTx.returns_removeImage.mp h
  exact .rearrange (List.erase_subperm _ _) few (locked _ (by simp))

theorem restrained_reorderImages {workspaceId productId : String} {imageIds : List String}
    {product : Product}
    (h : Returns (ProductTx.reorderImages workspaceId productId imageIds) env s product s')
    (few : (s.db.imagesOf productId).length ≤ maxImagesPerProduct)
    (locked : ∀ row ∈ s'.touched, row ∈ footprint) :
  Restrained quotas footprint s.db s'.db
  := by
  obtain ⟨_, images, hperm, rfl⟩ := ProductTx.returns_reorderImages h
  exact .rearrange hperm.subperm few (locked _ (by simp))

/-- A batch of products goes with its images. -/
theorem Restrained.deleteProducts {db : Db} {ids : List String}
    (stored : ∀ id ∈ ids, ∃ row ∈ db.products, row.id = id)
    (changed : ∀ row ∈ db.changed (db.deleteProducts ids), row ∈ footprint) :
  Restrained quotas footprint db (db.deleteProducts ids)
  := by
  refine .discard (fun p => p ∈ ids) ?_ (fun w => Db.productCount_filter_le _) fun p hp => ?_
  · exact congrArg db.images.filter (funext fun image => decide_not)
  · have hin := of_decide_eq_true hp
    obtain ⟨row, hrow, rfl⟩ := stored p hin
    refine changed (.product row.id) fun hsame => ?_
    have hmem : row ∈ db.products.filter (·.id ∉ ids) :=
      Table.mem_def.mpr (hsame.trans (Table.mem_def.mp hrow))
    exact of_decide_eq_true (Table.mem_filter.mp hmem).2 hin

/-- Whatever the transaction, it is restrained. -/
theorem Work.restrained {work : Work} {u : Unit} (h : Returns work.body env s u s')
    (under : work.Under quotas) (arranged : ∀ p, Arranged (s.db.imagesOf p))
    (changed : ∀ row ∈ s.db.changed s'.db, row ∈ footprint)
    (locked : ∀ row ∈ s'.touched, row ∈ footprint) :
  Restrained quotas footprint s.db s'.db
  := by
  by_cases hon : work.OnProducts
  · cases work with
    | createProduct =>
        obtain rfl : _ = quotas := under
        obtain ⟨_, h⟩ := Tx.returns_run'.mp h
        exact restrained_create h locked
    | updateProduct =>
        obtain ⟨_, h⟩ := Tx.returns_run'.mp h
        exact restrained_update h
    | deleteProduct =>
        obtain ⟨_, h⟩ := Tx.returns_run'.mp h
        exact restrained_delete h locked
    | attachImage =>
        obtain rfl : _ = quotas := under
        obtain ⟨_, h⟩ := Tx.returns_run'.mp h
        exact restrained_attach h (arranged _).numbered locked
    | removeImage =>
        obtain ⟨_, h⟩ := Tx.returns_run'.mp h
        exact restrained_removeImage h (arranged _).few locked
    | reorderImages =>
        obtain ⟨_, h⟩ := Tx.returns_run'.mp h
        exact restrained_reorderImages h (arranged _).few locked
    | deleteBatch =>
        cases (Work.effect h).1 with
        | deleteBatch _ db =>
            rw [db] at changed ⊢
            refine .deleteProducts (fun id hid => ?_) changed
            obtain ⟨row, hrow, hid, _⟩ := Db.mem_firstProducts hid
            exact ⟨row, hrow, hid⟩
    | purgeRows =>
        cases (Work.effect h).1 with
        | purgeNothing _ same => exact .same (by rw [same]) (by rw [same])
        | purgeRows _ _ _ _ db => exact .same (by rw [db]; rfl) (by rw [db]; rfl)
    | _ => exact hon.elim
  · obtain ⟨hp, hi⟩ := (Work.effect h).1.same_products hon
    exact .same hp hi

end Spec

/-! ### One at a time -/

/-- All workspaces are within the limits, and the images of all products are arranged. -/
structure Db.Orderly (quotas : ProductQuotas) (db : Db) : Prop where
  within : ∀ w, db.Within quotas w
  arranged : ∀ p, Arranged (db.imagesOf p)

theorem Db.Orderly.empty (quotas : ProductQuotas) :
  Db.empty.Orderly quotas
  where
  within _ := Db.within_iff.mpr ⟨Nat.zero_le _, Nat.zero_le _⟩
  arranged _ := ⟨rfl, Nat.zero_le _⟩

/-- A restrained transaction keeps what is orderly. -/
theorem Restrained.orderly {quotas : ProductQuotas} {footprint : Set RowId} {db db' : Db}
    (h : Restrained quotas footprint db db') (orderly : db.Orderly quotas) :
  db'.Orderly quotas
  where
  within w := by
    obtain ⟨hp, hb⟩ := Db.within_iff.mp (orderly.within w)
    refine Db.within_iff.mpr ⟨?_, ?_⟩
    · rcases h.products w with hle | ⟨hmax, _⟩
      · exact hle.trans hp
      · exact hmax
    · rcases h.bytes w with hle | ⟨hmax, _⟩
      · exact hle.trans hb
      · exact hmax
  arranged p := by
    rcases h.images p with hsame | ⟨_, harranged⟩
    · rw [Db.imagesOf_congr hsame]
      exact orderly.arranged p
    · exact harranged

/-- In every reachable session all is orderly. -/
theorem Reachable.orderly {env : Env} {quotas : ProductQuotas} {s : Session}
    (h : Reachable env (Work.Under quotas) s) :
  s.db.Orderly quotas
  := by
  induction h with
  | refl => exact .empty quotas
  | @commit s s' _ _ _ allowed returns _ ih =>
      have restrained : Restrained quotas Set.univ s.db s'.db :=
        Work.restrained returns allowed ih.arranged (fun _ _ => trivial) fun _ _ => trivial
      exact restrained.orderly ih
  | wait _ _ same _ ih => exact same ▸ ih

/-! ### Overlapping -/

/-- What happens outside of a footprint: the live workspaces stay, the rows changed are in the
footprint, a live workspace that is not in it gets no more, and a product that is not in it keeps
its images. -/
structure Spares (footprint : Set RowId) (db db' : Db) : Prop where
  changed : ∀ row ∈ db.changed db', row ∈ footprint
  live : ∀ w, db'.live w = db.live w
  products : ∀ w, (db.live w).isSome → .workspace w ∉ footprint →
    db'.productCount w ≤ db.productCount w
  bytes : ∀ w, (db.live w).isSome → .workspace w ∉ footprint →
    db'.storageUsed w ≤ db.storageUsed w
  images : ∀ p, .product p ∉ footprint → db.images.Same (·.productId = p) db'.images

section Overlap

variable {quotas : ProductQuotas} {footprint other : Set RowId} {db db' db'' base final now : Db}

theorem Spares.refl (footprint : Set RowId) (db : Db) :
  Spares footprint db db
  where
  changed row hrow := by
    cases row with
    | _ => exact absurd rfl hrow
  live _ := rfl
  products _ _ _ := le_refl _
  bytes _ _ _ := le_refl _
  images _ _ := .refl _ _

theorem Spares.trans (h : Spares footprint db db') (h' : Spares footprint db' db'') :
  Spares footprint db db''
  where
  changed row hrow := by
    rcases @Db.changed_trans db db' db'' row hrow with hrow | hrow
    · exact h.changed row hrow
    · exact h'.changed row hrow
  live w := (h'.live w).trans (h.live w)
  products w hlive hout := (h'.products w (h.live w ▸ hlive) hout).trans (h.products w hlive hout)
  bytes w hlive hout := (h'.bytes w (h.live w ▸ hlive) hout).trans (h.bytes w hlive hout)
  images p hout := (h.images p hout).trans (h'.images p hout)

theorem Spares.mono (h : Spares footprint db db') (sub : ∀ row ∈ footprint, row ∈ other) :
  Spares other db db'
  where
  changed row hrow := sub row (h.changed row hrow)
  live := h.live
  products w hlive hout := h.products w hlive fun hin => hout (sub _ hin)
  bytes w hlive hout := h.bytes w hlive fun hin => hout (sub _ hin)
  images p hout := h.images p fun hin => hout (sub _ hin)

/-- What the others do meanwhile is outside of the footprint. -/
theorem Spares.meanwhile {P : Db → Prop} {τ : Type}
    (h : Meanwhile P (fun (_ : τ) => Spares) footprint db db') :
  Spares footprintᶜ db db'
  := by
  induction h with
  | refl => exact .refl _ _
  | tail _ step ih =>
      obtain ⟨_, _, _, other, spares, apart⟩ := step
      exact ih.trans (spares.mono fun row hrow hin => Set.disjoint_left.mp apart hin hrow)

/-- The live workspaces are those of the start and within their limits, and the images of all
products are arranged. -/
structure Db.Bounded (quotas : ProductQuotas) (db init : Db) : Prop where
  live : ∀ w, db.live w = init.live w
  within : ∀ w, (init.live w).isSome → db.Within quotas w
  arranged : ∀ p, Arranged (db.imagesOf p)

/-- A row that the transaction has changed was changed by none of the others. -/
theorem Spares.apart {α : Type} (seen : Spares footprintᶜ base now) {row : RowId}
    {ofFinal ofBase ofNow : α} (changed : ofFinal ≠ ofBase → row ∈ footprint)
    (same : ofNow ≠ ofBase → row ∈ base.changed now) :
  ofFinal = ofBase ∨ ofNow = ofBase
  := by
  by_contra hnot
  obtain ⟨h₁, h₂⟩ := not_or.mp hnot
  exact seen.changed row (same h₂) (changed h₁)

/-- What counts after the merge, and before the transaction, is what counts in the end of the
transaction and at its commit. -/
theorem productCount_merge (changed : ∀ row ∈ base.changed final, row ∈ footprint)
    (seen : Spares footprintᶜ base now) (w : String) :
  (Db.merge base final now).productCount w + base.productCount w
    = final.productCount w + now.productCount w
  := by
  simp only [Db.productCount_eq]
  exact Table.sum_merge fun k => seen.apart (changed (.product k)) id

theorem storageUsed_merge (changed : ∀ row ∈ base.changed final, row ∈ footprint)
    (seen : Spares footprintᶜ base now) (w : String) :
  (Db.merge base final now).storageUsed w + base.storageUsed w
    = final.storageUsed w + now.storageUsed w
  := by
  simp only [Db.storageUsed_eq]
  exact Table.sum_merge fun k => seen.apart (changed (.image k)) id

/-- The live workspaces stay when the transaction has not changed them. -/
theorem live_merge (live : ∀ w, final.live w = base.live w) (seen : Spares footprintᶜ base now)
    (w : String) :
  (Db.merge base final now).live w = now.live w
  := by
  have hget : (Db.merge base final now).workspaces.get w
      = if final.workspaces.get w = base.workspaces.get w then now.workspaces.get w
        else final.workspaces.get w := rfl
  rw [Db.live, hget]
  split
  · rfl
  · exact (live w).trans (seen.live w).symm

/-- A restrained transaction commits within the limits, whatever the others have done since its
snapshot, and spares what is not in its footprint. -/
theorem Restrained.merge {init : Db} (h : Restrained quotas footprint base final)
    (changed : ∀ row ∈ base.changed final, row ∈ footprint)
    (live : ∀ w, final.live w = base.live w) (seen : Spares footprintᶜ base now)
    (before : base.Bounded quotas init) (current : now.Bounded quotas init) :
  (Db.merge base final now).Bounded quotas init ∧ Spares footprint now (Db.merge base final now)
  := by
  have hlive := live_merge live seen
  have images : ∀ p, (now.images.Same (·.productId = p) (Db.merge base final now).images)
      ∨ (.product p ∈ footprint ∧ Arranged ((Db.merge base final now).imagesOf p)) := by
    intro p
    rcases h.images p with hsame | ⟨hin, harranged⟩
    · refine Or.inl (hsame.merge_current fun k => ?_)
      exact seen.apart (changed (.image k)) id
    · refine Or.inr ⟨hin, ?_⟩
      rw [Db.imagesOf_congr (seen.images p (not_not.mpr hin)).merge_final]
      exact harranged
  constructor
  · refine ⟨fun w => (hlive w).trans (current.live w), fun w hw => ?_, fun p => ?_⟩
    · obtain ⟨hp, hb⟩ := Db.within_iff.mp (current.within w hw)
      have hproducts := productCount_merge changed seen w
      have hbytes := storageUsed_merge changed seen w
      have hbase : (base.live w).isSome := (before.live w).symm ▸ hw
      refine Db.within_iff.mpr ⟨?_, ?_⟩
      · rcases h.products w with hle | ⟨hmax, hin⟩
        · omega
        · have := seen.products w hbase (not_not.mpr (hin hbase))
          omega
      · rcases h.bytes w with hle | ⟨hmax, hin⟩
        · omega
        · have := seen.bytes w hbase (not_not.mpr (hin hbase))
          omega
    · rcases images p with hsame | ⟨_, harranged⟩
      · rw [Db.imagesOf_congr hsame]
        exact current.arranged p
      · exact harranged
  · refine ⟨fun row hrow => changed row (Db.changed_merge hrow), hlive, ?_, ?_, ?_⟩
    · intro w hw hout
      have hproducts := productCount_merge changed seen w
      rcases h.products w with hle | ⟨_, hin⟩
      · omega
      · exact absurd (hin (seen.live w ▸ hw)) hout
    · intro w hw hout
      have hbytes := storageUsed_merge changed seen w
      rcases h.bytes w with hle | ⟨_, hin⟩
      · omega
      · exact absurd (hin (seen.live w ▸ hw)) hout
    · intro p hout
      exact (images p).resolve_right fun h => hout h.1

/-- The transactions on products leave the live workspaces alone. -/
theorem Effect.live {env : Env} {s s' : Session} {work : Work} (h : Effect env s s' work)
    (on : work.OnProducts) (w : String) :
  s'.db.live w = s.db.live w
  := by
  cases h with
  | deleteBatch _ db => rw [db]; rfl
  | purgeNothing _ same => rw [same]
  | purgeRows workspace stored deleted _ db =>
      rw [db]
      obtain ⟨_, rfl⟩ := Table.get_eq_some_iff.mp stored
      by_cases hw : w = workspace.id
      · subst hw
        rw [Db.live, Db.live, stored, Db.purge, Table.get_erase_self, Option.filter_some,
          Workspace.isDeleted, Option.isSome_iff_ne_none.mpr deleted]
        rfl
      · rw [Db.live, Db.live, Db.purge, Table.get_erase_of_ne _ hw]
  | createProduct _ _ _ _ db => rw [Db.live, Db.live, db]
  | updateProduct _ _ _ _ _ _ db => rw [Db.live, Db.live, db]
  | deleteProduct _ _ _ _ db => rw [Db.live, Db.live, db]
  | attachImage _ _ _ _ _ _ _ _ db => rw [Db.live, Db.live, db]
  | removeImage _ _ _ _ _ _ db => rw [Db.live, Db.live, db]
  | reorderImages _ _ _ _ _ _ db => rw [Db.live, Db.live, db]
  | _ => exact on.elim

/-- The transactions on products under the limits that are configured, and those of purges,
overlapping in any way. -/
def shop (env : Env) (quotas : ProductQuotas) : System Db RowId Work :=
  { system env with
    Runs := fun work base final footprint =>
      Runs env work base final footprint ∧ work.Under quotas ∧ work.OnProducts }

/-- However transactions on products overlap, the live workspaces stay within their limits and
the images of the products arranged. -/
theorem shop_bounded {env : Env} {init : Db} (bounded : init.Bounded quotas init)
    (unique : init.Unique) {commits : List (Commit Db RowId Work)}
    (history : History (shop env quotas) init commits) :
  (current init commits).Bounded quotas init ∧ (current init commits).Unique
  := by
  refine (history.kept (P := fun db => db.Bounded quotas init ∧ db.Unique)
    (G := fun _ => Spares) ⟨bounded, unique⟩ ?_).current
  rintro work base final footprint now ⟨hbase, _⟩ ⟨hnow, _⟩ ⟨runs, under, on⟩ meanwhile valid
  obtain ⟨s, s', _, rfl, _, returns, rfl, rfl⟩ := runs
  have changed : ∀ row ∈ s.db.changed s'.db,
      row ∈ s.db.changed s'.db ∪ { row | row ∈ s'.touched } := fun _ hrow => Or.inl hrow
  have restrained := Work.restrained returns under hbase.arranged changed fun _ hrow => Or.inr hrow
  obtain ⟨hmerged, hspares⟩ := restrained.merge changed ((Work.effect returns).1.live on)
    (.meanwhile meanwhile) hbase hnow
  exact ⟨⟨hmerged, valid⟩, hspares⟩

end Overlap

/-! ### All runs -/

/-- The limits hold: every live workspace is within its quotas, every product has its images at
the positions `0, 1, 2, ..` and not too many, and no two of them from the same upload. -/
structure Db.HoldsLimits (quotas : ProductQuotas) (db : Db) : Prop where
  within : ∀ w, (db.live w).isSome → db.Within quotas w
  images : ∀ product ∈ db.products, (db.imagesOf product.id).length ≤ maxImagesPerProduct
    ∧ (db.imagesOf product.id).map ProductImage.position
      = List.range (db.imagesOf product.id).length
  uploads : ∀ image ∈ db.images, ∀ image' ∈ db.images, image.productId = image'.productId →
    image.uploadKey ≠ none → image.uploadKey = image'.uploadKey → image = image'

/-- From a reachable session on, however transactions on products and purges overlap, the limits
hold after each commit. -/
theorem limits_hold {env : Env} {quotas : ProductQuotas} {s : Session}
    (reachable : Reachable env (Work.Under quotas) s) {commits : List (Commit Db RowId Work)}
    (history : History (shop env quotas) s.db commits) :
  (current s.db commits).HoldsLimits quotas
  := by
  have orderly := reachable.orderly
  have start : s.db.Bounded quotas s.db :=
    ⟨fun _ => rfl, fun w _ => orderly.within w, orderly.arranged⟩
  obtain ⟨bounded, unique⟩ := shop_bounded start (Reachable.unique reachable) history
  refine ⟨fun w hw => bounded.within w (bounded.live w ▸ hw), fun product _ => ?_, ?_⟩
  · exact ⟨(bounded.arranged product.id).few, (bounded.arranged product.id).numbered⟩
  · intro image hi image' hi' hof hsome hkey
    exact Table.eq_of_key hi hi' (unique.uploadKey image hi image' hi' ⟨hsome, hof, hkey⟩)

/-- An image is attached to one product while another one is deleted. -/
theorem limits_hold_of_attach :
  ∃ (s : Session) (attach delete : Commit Db RowId Work),
    Reachable .sample (Work.Under ⟨2, 100⟩) s
    ∧ History (shop .sample ⟨2, 100⟩) s.db [attach, delete]
    ∧ (attach.state.images.any fun image => image.sizeBytes = 60) = true
    ∧ attach.state.products.rows.map ProductRow.name = ["Pen"]
    ∧ attach.state.HoldsLimits ⟨2, 100⟩
  := by
  let attach : Work := .attachImage ⟨2, 100⟩ "i" "iiiiii" ⟨"media/a", "media/b", "image/webp", 60⟩ "k"
  let delete : Work := .deleteProduct "i" "iiiiiii"
  let s := Session.after .sample [.register "ada" "ada@acme.test" "Ada" none,
    .create "Acme" "acme" "ada", .createProduct ⟨2, 100⟩ "i" "Pen" none 100 .active none,
    .createProduct ⟨2, 100⟩ "i" "Pad" none 100 .active none]
  let state := Db.merge s.db (attach.body.run .sample s).2.db (delete.body.run .sample s).2.db
  have reachable : Reachable .sample (Work.Under ⟨2, 100⟩) s := .after (by simp [Work.Under])
  have deletes := Runs.of_run .sample delete (Reachable.touched reachable) (by decide +kernel)
  have attaches := Runs.of_run .sample attach (Reachable.touched reachable) (by decide +kernel)
  have history : History (shop .sample ⟨2, 100⟩) s.db [⟨attach, _, state⟩, ⟨delete, _, _⟩] :=
    .both Db.merge_base .start rfl ⟨deletes, trivial, trivial⟩ ⟨attaches, rfl, trivial⟩
      (Db.footprints_disjoint (by decide +kernel)) (show Db.Unique _ by decide +kernel)
      (show Db.Unique state by decide +kernel)
  have image : (state.images.any fun image => image.sizeBytes = 60) = true := by decide +kernel
  have names : state.products.rows.map ProductRow.name = ["Pen"] := by decide +kernel
  have limits := limits_hold reachable history
  exact ⟨s, _, _, reachable, history, image, names, limits⟩

end MvpApi
