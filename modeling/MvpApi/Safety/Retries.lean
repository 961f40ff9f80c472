import MvpApi.Safety.Sequences

/-!
# Trying again

A client that got no answer, and a request that lost a race, try again. If the transaction had
committed after all, the second one finds the rows as the first one left them. For all transactions
but a few that is harmless: it is refused, or it writes what is there. The few are the creation of a
product, a batch of a purge, an invitation, which can be sent again once it has expired, and a
registration with an invitation.
-/

set_option autoImplicit false

namespace MvpApi

open Exec

/-- The transactions that may have a further effect when they run again. -/
def Work.Repeats : Work → Prop
  | .createProduct .. | .deleteBatch .. | .issue .. => True
  | .register _ _ _ (some _) => True
  | _ => False

/-! ### Rows written again -/

/-- Writing a row again that was written before changes nothing, if the writing has no further
effect on it. -/
theorem Table.put_again {κ ρ : Type} [DecidableEq κ] {key : ρ → κ} {t : Table key} {k : κ}
    {row found : ρ} {f : ρ → ρ} (stored : t.get k = some row) (same : key (f row) = key row)
    (again : (t.put (f row)).get k = some found) (idem : f (f row) = f row) :
  (t.put (f row)).put (f found) = t.put (f row)
  := by
  obtain ⟨_, rfl⟩ := Table.get_eq_some_iff.mp stored
  rw [← same, Table.get_put_self] at again
  obtain rfl := Option.some.inj again
  rw [idem]
  exact Table.put_of_mem (Table.get_eq_some_iff.mp (t.get_put_self (f row))).1

/-- What a unique constraint says of two rows is not said of a row and a new one. -/
theorem Table.not_again {κ ρ : Type} [DecidableEq κ] {key : ρ → κ} {t : Table key} {row new : ρ}
    {R : ρ → ρ → Prop} (stored : row ∈ t) (fresh : t.get (key new) = none)
    (unique : ∀ r ∈ t.put new, ∀ r' ∈ t.put new, R r r' → key r = key r') :
  ¬ R row new
  := by
  intro related
  have hne : key row ≠ key new := Table.get_eq_none_iff.mp fresh row stored
  exact hne (unique row (Table.mem_put.mpr (Or.inr ⟨stored, hne⟩)) new
    (Table.mem_put.mpr (Or.inl rfl)) related)

/-- An account that was added unless it was taken is taken. -/
theorem Db.addUnlessTaken_again {db : Db} {user user' : User} (id : user'.id = user.id)
    (email : user'.email = user.email) :
  (db.addUnlessTaken user).addUnlessTaken user' = db.addUnlessTaken user
  := by
  by_cases taken : ((db.users.get user.id).isSome || db.users.any (·.email = user.email)) = true
  · rw [show db.addUnlessTaken user = db from if_pos taken, addUnlessTaken, id, email, if_pos taken]
  · rw [show db.addUnlessTaken user = _ from if_neg taken, addUnlessTaken, id, if_pos]
    rw [Table.get_put_self]
    rfl

/-- Taking a name again changes nothing. -/
theorem User.rename_rename (user : User) (displayName : String) (belongs : Bool) :
  (user.rename displayName belongs).rename displayName belongs = user.rename displayName belongs
  := by
  unfold User.rename
  cases user.onboardingStatus with
  | profilePending =>
      cases belongs with
      | true => rfl
      | false => rfl
  | workspacePending => rfl
  | completed => rfl

/-- Setting fields of a product again changes nothing. -/
theorem edited_edited (row : ProductRow) (changes : ProductChanges) (now : Time) :
  ProductTx.edited { ProductTx.edited row changes with updatedAt := now } changes
    = { ProductTx.edited row changes with updatedAt := now }
  := by
  unfold ProductTx.edited
  obtain ⟨name, sku, price, status, description⟩ := changes
  cases name with
  | _ => cases sku with
    | _ => cases price with
      | _ => cases status with
        | _ => cases description with
          | _ => rfl

/-- Numbering images again that are numbered changes nothing. -/
theorem Product.renumber_renumber (images : List ProductImage) :
  renumber (renumber images) = renumber images
  := by
  refine List.ext_getElem (by simp) fun i h₁ h₂ => ?_
  simp [renumber]

/-- Ordering the images of a product again in the same way changes nothing. -/
theorem Product.reorderImages_again {product product' product'' : Product} {imageIds : List String}
    (distinct : (product.images.map ProductImage.id).Nodup)
    (made : product.reorderImages imageIds = .ok product')
    (made' : product'.reorderImages imageIds = .ok product'') :
  product'' = product'
  := by
  obtain ⟨perm, rfl⟩ := (reorderImages_eq_ok distinct).mp made
  let product' : Product := { product with images := renumber (imageIds.filterMap product.byId) }
  have ids : product'.images.map ProductImage.id = imageIds := by
    rw [map_renumber fun _ _ => rfl]
    exact map_id_filterMap_byId distinct fun _ hid => perm.mem_iff.mp hid
  have distinct' : (product'.images.map ProductImage.id).Nodup := by
    rw [ids]
    exact perm.nodup_iff.mpr distinct
  obtain ⟨_, rfl⟩ := (reorderImages_eq_ok distinct').mp made'
  have found := filterMap_byId distinct' fun _ hi => hi
  rw [ids] at found
  exact congrArg (fun images => { product with images := images })
    ((congrArg renumber found).trans (renumber_renumber _))

/-- Writing the images of a product again changes nothing. -/
theorem Moved.savedImages_again {images : Table ProductImage.id} {productId : String}
    {saved : List ProductImage} (h : Moved images productId saved) :
  savedImages (savedImages images productId saved) productId saved
    = savedImages images productId saved
  := by
  have again : Moved (savedImages images productId saved) productId saved :=
    ⟨h.distinct, fun image hi => ⟨image, (mem_savedImages h).mpr (Or.inl hi), h.of_product hi, rfl⟩⟩
  refine Table.ext_mem fun image => ?_
  rw [mem_savedImages again, mem_savedImages h]
  tauto

/-- Granting to a role the permissions that it was granted. -/
theorem granted_again (t : Table RolePermission.key) (roleId : String) (permissions : List String) :
  granted ((granted (t.filter (·.roleId ≠ roleId)) roleId permissions).filter (·.roleId ≠ roleId))
      roleId permissions
    = granted (t.filter (·.roleId ≠ roleId)) roleId permissions
  := by
  refine Table.ext_mem fun row => ?_
  simp only [mem_granted, Table.mem_filter, decide_eq_true_eq]
  tauto

section Effects

variable {env : Env} {s s₁ s₂ s₃ : Session}

/-- The live workspace is the row that was written. -/
theorem live_of_put {db : Db} {t : Table Workspace.id} {found : Workspace}
    (workspaces : db.workspaces = t) {workspaceId : String}
    (live : db.live workspaceId = some found) :
  t.get workspaceId = some found
  := by
  obtain ⟨hmem, hid, _⟩ := Db.live_eq_some.mp live
  exact Table.get_eq_some_iff.mpr ⟨workspaces ▸ hmem, hid⟩

theorem stored_of_live {db : Db} {workspaceId : String} {workspace : Workspace}
    (live : db.live workspaceId = some workspace) :
  db.workspaces.get workspaceId = some workspace
  := live_of_put rfl live

/-- Transactions on workspaces and accounts that are accepted again write what is there. -/
theorem Effect.again {work : Work} (once : ¬ work.Repeats) (other : ¬ work.OnProducts)
    (first : Effect env s s₁ work) (unique₁ : s₁.db.Unique) (same : s₂.db = s₁.db)
    (second : Effect env s₂ s₃ work) (unique : s₃.db.Unique) :
  s₃.db = s₂.db
  := by
  cases first with
  | create _ workspace _ _ _ _ _ _ _ _ shape _ _ _ _ _ _ _ _ _ db =>
      cases second with
      | create _ workspace' _ _ _ _ _ _ _ _ shape' fresh _ _ _ _ _ _ _ _ db' =>
          -- The slug is taken by now.
          have stored : workspace ∈ s₂.db.workspaces := by
            rw [same, db]
            exact Table.mem_put.mpr (Or.inl rfl)
          have slugs := unique.slug
          rw [db'] at slugs
          obtain ⟨_, _, rfl⟩ := shape
          obtain ⟨_, _, rfl⟩ := shape'
          have distinct := Table.not_again (R := fun ws ws' => ws.slug = ws'.slug) stored fresh
            slugs
          exact absurd rfl distinct
  | @update _ name slug _ workspace live _ _ db =>
      cases second with
      | update workspace' live' _ _ db' =>
          have again := Table.put_again (f := (·.rename name slug)) (stored_of_live live) rfl
            (live_of_put (congrArg Db.workspaces (same.trans db)) live') rfl
          rw [db', same, db]
          exact congrArg (fun t => { s.db with workspaces := t }) again
  | @replaceLogo _ _ key url _ live _ _ db =>
      cases second with
      | replaceLogo workspace' live' _ _ db' =>
          have again := Table.put_again (f := (·.replaceLogo key url)) (stored_of_live live) rfl
            (live_of_put (congrArg Db.workspaces (same.trans db)) live') rfl
          rw [db', same, db]
          exact congrArg (fun t => { s.db with workspaces := t }) again
  | delete workspace _ _ _ live _ _ _ db =>
      cases second with
      | delete _ _ _ _ live' =>
          -- There is no such live workspace any more.
          obtain ⟨stored, hid, alive⟩ := Db.live_eq_some.mp live'
          obtain ⟨_, rfl, _⟩ := Db.live_eq_some.mp live
          rw [same, db] at stored
          rcases Table.mem_put.mp stored with rfl | ⟨_, hne⟩
          · cases alive
          · exact absurd hid hne
  | @addRole workspaceId name _ _ roleId _ _ _ _ _ db =>
      cases second with
      | addRole _ _ _ _ _ fresh _ db' =>
          -- The name is taken by now.
          have stored : (⟨roleId, workspaceId, strip name, false, false⟩ : Role)
              ∈ s₂.db.roles := by
            rw [same, db]
            exact Table.mem_put.mpr (Or.inl rfl)
          have names := unique.roleName
          rw [db'] at names
          have distinct := Table.not_again (R := fun role role' =>
            role.workspaceId = role'.workspaceId ∧ role.name = role'.name) stored fresh names
          exact absurd ⟨rfl, rfl⟩ distinct
  | @renameRole _ _ name _ _ role _ _ _ stored own _ _ db =>
      cases second with
      | renameRole _ role' _ _ _ stored' own' _ _ db' =>
          rw [same, db] at stored'
          have again := Table.put_again (f := fun role => { role with name := strip name })
            stored rfl stored' rfl
          rw [db', same, db]
          exact congrArg (fun t => { s.db with roles := t }) again
  | deleteRole _ role _ _ _ stored _ _ _ _ _ db =>
      cases second with
      | deleteRole _ role' _ _ _ stored' =>
          rw [same, db, Table.get_erase_self] at stored'
          cases stored'
  | setPermissions _ _ _ _ _ _ _ _ _ db =>
      cases second with
      | setPermissions _ _ _ _ _ _ _ _ _ db' =>
          rw [db', same, db]
          exact congrArg (fun t => { s.db with rolePermissions := t }) (granted_again _ _ _)
  | @setMemberRole _ _ roleId _ _ _ member _ _ _ _ _ _ belongs _ db =>
      cases second with
      | setMemberRole _ _ member' _ _ _ _ _ _ belongs' _ db' =>
          rw [Db.member, same, db] at belongs'
          have again := Table.put_again (f := fun member => { member with roleId := roleId })
            belongs rfl belongs' rfl
          rw [db', same, db]
          exact congrArg (fun t => { s.db with members := t }) again
  | removeMember _ member _ _ _ belongs _ db =>
      cases second with
      | removeMember _ _ _ _ _ belongs' =>
          rw [same, db] at belongs'
          have gone : (s.db.members.erase (pair _ _)).get (pair _ _) = some _ := belongs'
          rw [Table.get_erase_self] at gone
          cases gone
  | transfer workspace _ _ _ _ _ live allowed distinct _ _ _ _ _ db =>
      cases second with
      | transfer workspace' _ _ _ _ _ live' allowed' =>
          -- Somebody else is the owner by now.
          have owner := allowed'.owner (by decide) (by decide) live'
          have hget := live_of_put (congrArg Db.workspaces (same.trans db)) live'
          obtain ⟨_, rfl, _⟩ := Db.live_eq_some.mp live
          rw [Table.get_put, if_pos rfl] at hget
          obtain rfl := Option.some.inj hget
          exact absurd owner distinct
  | issue => exact absurd trivial once
  | revoke _ invitation _ _ _ stored _ _ _ db =>
      cases second with
      | revoke _ invitation' _ _ _ stored' _ usable =>
          obtain ⟨_, rfl⟩ := Table.get_eq_some_iff.mp stored
          rw [same, db, Table.get_put, if_pos rfl] at stored'
          obtain rfl := Option.some.inj stored'
          cases usable.1
  | @accept token userId joins =>
      cases second with
      | accept joins' =>
          -- The invitation is accepted by now.
          obtain ⟨_, invitation, _, _, _, _, _, _, _, hash, _, _, _, _, _, _, _, _, _, _, db⟩ :=
            joins
          obtain ⟨_, invitation', _, _, _, _, _, _, stored', hash', _, _, usable', _⟩ := joins'
          have accepted : { invitation with status := .accepted, acceptedBy := some userId }
              ∈ s₂.db.invitations := by
            rw [same, db]
            exact Table.mem_put.mpr (Or.inl rfl)
          have hid := (same ▸ unique₁ : s₂.db.Unique).tokenHash _ stored' _ accepted
            (hash'.trans hash.symm)
          obtain rfl := Table.eq_of_key stored' accepted hid
          cases usable'.1
  | @register _ _ _ token _ _ db =>
      cases second with
      | register _ _ db' =>
          rw [db', same, db]
          exact Db.addUnlessTaken_again rfl rfl
      | registerAndJoin => exact absurd trivial once
  | registerAndJoin => exact absurd trivial once
  | ensureAccount _ _ db =>
      cases second with
      | ensureAccount _ _ db' =>
          rw [db', same, db]
          exact Db.addUnlessTaken_again rfl rfl
  | @rename userId displayName user _ account _ db =>
      cases second with
      | rename user' _ account' _ db' =>
          have belongs : s₂.db.belongsToAny userId = s.db.belongsToAny userId := by
            rw [same, db]
            rfl
          rw [same, db] at account'
          have again := Table.put_again (f := (·.rename displayName (s.db.belongsToAny userId)))
            account rfl account' (user.rename_rename _ _)
          rw [db', belongs, same, db]
          exact congrArg (fun t => { s.db with users := t }) again
  | @replaceAvatar _ key url user account _ db =>
      cases second with
      | replaceAvatar user' account' _ db' =>
          rw [same, db] at account'
          have again := Table.put_again (f := (·.replaceAvatar key url)) account rfl account' rfl
          rw [db', same, db]
          exact congrArg (fun t => { s.db with users := t }) again
  | deleteAccount _ _ account _ _ db =>
      cases second with
      | deleteAccount _ _ account' =>
          rw [same, db, Table.get_erase_self] at account'
          cases account'
  | _ => exact absurd trivial other

end Effects

section Products

variable {env : Env} {s s₁ s₂ s₃ : Session}

theorem update_again {workspaceId productId : String} {changes : ProductChanges}
    {ifMatch : Option Time} {product product' : Product}
    (first : Returns (ProductTx.update workspaceId productId changes ifMatch) env s product s₁)
    (same : s₂.db = s₁.db)
    (second : Returns (ProductTx.update workspaceId productId changes ifMatch) env s₂ product' s₃) :
  s₃.db = s₂.db
  := by
  obtain ⟨row, stored, _, _, edits⟩ := ProductTx.returns_update.mp first
  obtain ⟨row', stored', _, _, edits'⟩ := ProductTx.returns_update.mp second
  obtain ⟨_, rfl⟩ := Table.get_eq_some_iff.mp stored
  -- The fields are those that are asked for by now.
  have settled : ProductTx.edited row' changes = row' := by
    rw [same] at stored'
    rcases edits with ⟨unchanged, _, rfl⟩ | ⟨_, _, _, rfl⟩
    · obtain rfl := Option.some.inj (stored.symm.trans stored')
      exact unchanged
    · have written : (s.db.products.put { ProductTx.edited row changes with
          updatedAt := env.clock s.ticks }).get row.id = some row' := stored'
      obtain rfl := Option.some.inj ((Table.get_put_self _ _).symm.trans written)
      exact edited_edited row changes _
  rcases edits' with ⟨_, _, rfl⟩ | ⟨changed, _⟩
  · rfl
  · exact absurd settled changed

theorem delete_again {workspaceId productId : String} {product product' : Product}
    (first : Returns (ProductTx.delete workspaceId productId) env s product s₁)
    (same : s₂.db = s₁.db)
    (second : Returns (ProductTx.delete workspaceId productId) env s₂ product' s₃) :
  s₃.db = s₂.db
  := by
  obtain ⟨_, _, _, _, rfl⟩ := ProductTx.returns_delete.mp first
  obtain ⟨_, stored', _⟩ := ProductTx.returns_delete.mp second
  rw [same] at stored'
  have gone : (s.db.products.erase productId).get productId = some _ := stored'
  rw [Table.get_erase_self] at gone
  cases gone

theorem attach_again {quotas : ProductQuotas} {workspaceId productId uploadKey : String}
    {stored : StoredImage} {image image' : ProductImage}
    (first : Returns (ProductTx.attach quotas workspaceId productId stored uploadKey) env s image
      s₁)
    (same : s₂.db = s₁.db)
    (second : Returns (ProductTx.attach quotas workspaceId productId stored uploadKey) env s₂ image'
      s₃)
    (unique : s₃.db.Unique) :
  s₃.db = s₂.db
  := by
  obtain ⟨_, _, _, _, _, rfl⟩ := ProductTx.returns_attach.mp first
  obtain ⟨_, _, _, fresh, _, rfl⟩ := ProductTx.returns_attach.mp second
  -- The product has an image of the upload by now.
  have attached : ProductTx.newImage env s workspaceId productId stored uploadKey
      ∈ s₂.db.images := by
    rw [same]
    exact Table.mem_put.mpr (Or.inl rfl)
  have distinct := @Table.not_again _ _ _ _ s₂.db.images _
    (ProductTx.newImage env s₂ workspaceId productId stored uploadKey)
    (fun image image' => image.uploadKey ≠ none ∧ image.productId = image'.productId
      ∧ image.uploadKey = image'.uploadKey) attached fresh unique.uploadKey
  exact absurd ⟨nofun, rfl, rfl⟩ distinct

theorem removeImage_again {workspaceId productId imageId : String} {image image' : ProductImage}
    (first : Returns (ProductTx.removeImage workspaceId productId imageId) env s image s₁)
    (same : s₂.db = s₁.db)
    (second : Returns (ProductTx.removeImage workspaceId productId imageId) env s₂ image' s₃) :
  s₃.db = s₂.db
  := by
  obtain ⟨_, found, rfl⟩ := ProductTx.returns_removeImage.mp first
  obtain ⟨_, found', _⟩ := ProductTx.returns_removeImage.mp second
  -- There is no image of the id any more.
  have images : s₂.db.imagesOf productId
      = Product.renumber ((s.db.imagesOf productId).erase image) := by
    rw [same]
    exact (Moved.of_subperm (List.erase_subperm _ _)).imagesOf (Product.numbered_renumber _)
  rw [images] at found'
  obtain ⟨old, hold, moved⟩ := Product.mem_renumber (List.mem_of_find?_eq_some found')
  have hid : image.id = imageId := by simpa using List.find?_some found
  have hid' : old.id = imageId := by
    have := List.find?_some found'
    rw [moved] at this
    simpa using this
  have distinct := s.db.nodup_ids_imagesOf productId
  have nodup := List.Nodup.of_map _ distinct
  obtain ⟨hne, hmem⟩ := (nodup.mem_erase_iff).mp hold
  exact absurd (List.inj_on_of_nodup_map distinct hmem (List.mem_of_find?_eq_some found)
    (hid'.trans hid.symm)) hne

theorem reorderImages_again {workspaceId productId : String} {imageIds : List String}
    {product product' : Product}
    (first : Returns (ProductTx.reorderImages workspaceId productId imageIds) env s product s₁)
    (same : s₂.db = s₁.db)
    (second : Returns (ProductTx.reorderImages workspaceId productId imageIds) env s₂ product' s₃) :
  s₃.db = s₂.db
  := by
  unfold ProductTx.reorderImages Products.saveImages at first second
  simp only [returns_bind, ProductTx.returns_get, Tx.returns_check, Tx.returns_write,
    returns_pure] at first second
  obtain ⟨old, _, ⟨hold, rfl⟩, new, _, ⟨made, rfl⟩, _, _, rfl, _, rfl⟩ := first
  obtain ⟨old', _, ⟨hold', rfl⟩, new', _, ⟨made', rfl⟩, _, _, rfl, _, rfl⟩ := second
  obtain ⟨row, stored, _, rfl⟩ := Db.product_eq_some.mp hold
  obtain ⟨row', stored', _, rfl⟩ := Db.product_eq_some.mp hold'
  obtain ⟨_, rfl⟩ := Table.get_eq_some_iff.mp stored
  have products : s₂.db.products.get row.id = s.db.products.get row.id := by
    rw [same]
    rfl
  obtain rfl := Option.some.inj (stored'.symm.trans (products.trans stored))
  have distinct : ((s.db.withImages row').images.map ProductImage.id).Nodup :=
    s.db.nodup_ids_imagesOf row'.id
  obtain ⟨perm, rfl⟩ := (Product.reorderImages_eq_ok distinct).mp made
  let saved := Product.renumber (imageIds.filterMap (s.db.withImages row').byId)
  have moved : Moved s.db.images row'.id saved := Moved.of_subperm
    (ProductTx.perm_of_ids ((Product.sorted_eq_iff distinct).mpr perm)).subperm
  have images : s₂.db.imagesOf row'.id = saved := by
    rw [same]
    exact moved.imagesOf (Product.numbered_renumber _)
  rw [Db.withImages, images] at made'
  obtain rfl := Product.reorderImages_again distinct made made'
  have written : s₂.db.images = savedImages s.db.images row'.id saved := by
    rw [same]
    rfl
  have again : savedImages s₂.db.images row'.id saved = s₂.db.images := by
    rw [written]
    exact moved.savedImages_again
  exact congrArg (fun images => { s₂.db with images := images }) again

/-- Purging a workspace again changes nothing. -/
theorem purgeRows_again {workspaceId : String} (first : Effect env s s₁ (.purgeRows workspaceId))
    (same : s₂.db = s₁.db) (second : Effect env s₂ s₃ (.purgeRows workspaceId)) :
  s₃.db = s₂.db
  := by
  cases second with
  | purgeNothing _ idle => rw [idle]
  | purgeRows workspace stored deleted =>
      obtain ⟨hmem, hid⟩ := Table.get_eq_some_iff.mp stored
      cases first with
      | purgeNothing absent idle =>
          rw [same, idle] at hmem
          exact absurd (absent workspace hmem hid) deleted
      | purgeRows _ stored' _ _ db =>
          obtain ⟨_, rfl⟩ := Table.get_eq_some_iff.mp stored'
          rw [same, db, Db.purge, Table.mem_erase] at hmem
          exact absurd hid hmem.2

end Products

/-! ### The second attempt -/

section Retry

variable {env : Env} {s s₁ s₂ s₃ : Session} {work : Work} {u u' : Unit}

/-- A transaction that has committed and commits again has no further effect. -/
theorem Work.again (once : ¬ work.Repeats) (first : Returns work.body env s u s₁)
    (unique : s₁.db.Unique) (same : s₂.db = s₁.db) (second : Returns work.body env s₂ u' s₃)
    (unique' : s₃.db.Unique) :
  s₃.db = s₂.db
  := by
  by_cases on : work.OnProducts
  · cases work with
    | createProduct => exact absurd trivial once
    | deleteBatch => exact absurd trivial once
    | updateProduct =>
        obtain ⟨_, first⟩ := Tx.returns_run'.mp first
        obtain ⟨_, second⟩ := Tx.returns_run'.mp second
        exact update_again first same second
    | deleteProduct =>
        obtain ⟨_, first⟩ := Tx.returns_run'.mp first
        obtain ⟨_, second⟩ := Tx.returns_run'.mp second
        exact delete_again first same second
    | attachImage =>
        obtain ⟨_, first⟩ := Tx.returns_run'.mp first
        obtain ⟨_, second⟩ := Tx.returns_run'.mp second
        exact attach_again first same second unique'
    | removeImage =>
        obtain ⟨_, first⟩ := Tx.returns_run'.mp first
        obtain ⟨_, second⟩ := Tx.returns_run'.mp second
        exact removeImage_again first same second
    | reorderImages =>
        obtain ⟨_, first⟩ := Tx.returns_run'.mp first
        obtain ⟨_, second⟩ := Tx.returns_run'.mp second
        exact reorderImages_again first same second
    | purgeRows => exact purgeRows_again (Work.effect first).1 same (Work.effect second).1
    | _ => exact on.elim
  · exact Effect.again once on (Work.effect first).1 unique same (Work.effect second).1 unique'

/-- Whoever tries a transaction again that has committed, whenever that is, as long as nobody else
has changed the rows meanwhile, changes nothing. -/
theorem retry_harmless (once : ¬ work.Repeats) (committed : Returns work.body env s u s₁)
    (unique : s₁.db.Unique) (same : s₂.db = s₁.db) :
  (work.step env s₂).db = s₂.db
  := by
  unfold Work.step
  split
  · next s' returns =>
      split
      · next unique' =>
          have again : s'.db = s₂.db := Work.again once committed unique same returns unique'
          exact again
      · rfl
  · rfl

end Retry

/-- Ada gives permissions to a role: when she tries again, nothing changes any more. -/
theorem retry_harmless_of_setPermissions :
  let s := Session.after .sample [.register "ada" "ada@acme.test" "Ada" none,
    .create "Acme" "acme" "ada"]
  let work : Work := .setPermissions "i" "iiii" ["products.update", "products.create"] "ada"
  let s₁ := (work.body.run .sample s).2
  s₁.db.rolePermissions.get (pair "iiii" "products.delete") = none
    ∧ s.db.rolePermissions.get (pair "iiii" "products.delete") ≠ none
    ∧ (work.step .sample s₁.done).db = s₁.db
  := by
  intro s work s₁
  have returns : (work.body.run .sample s).1 = .ok () := by decide +kernel
  exact ⟨by decide +kernel, by decide +kernel,
    retry_harmless id (Work.returns_of_ok returns) (by decide +kernel) rfl⟩

end MvpApi
