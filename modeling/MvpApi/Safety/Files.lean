import MvpApi.Runs.Calls
import MvpApi.Runs.Catalogue
import MvpApi.Runs.Removals

/-!
# Files and rows

The files under `media/` are those that the rows refer to, each of them once: by the image or the
thumbnail of a product, the logo of a workspace or the avatar of an account. While a call runs
there may be more: files that were stored and are not yet referred to, and files no longer
referred to that are still to be deleted. `Extra` says which these are, and each step of a call
says what it adds to them and takes from them. At the end of a call, however it ends, there are
none.
-/

set_option autoImplicit false

namespace MvpApi

open Program Exec

/-! ### The files that rows refer to -/

/-- The file of a key, if there is one. -/
def filed (key : Option String) : Multiset String := ↑key.toList

/-- The files of an image. -/
def ProductImage.files (image : ProductImage) : Multiset String :=
  image.key ::ₘ filed image.thumbKey

/-- The files that the rows refer to. -/
def Db.files (db : Db) : Multiset String :=
  db.images.sum ProductImage.files + db.workspaces.sum (fun workspace => filed workspace.logoKey)
    + db.users.sum fun user => filed user.avatarKey

/-- Some row refers to the file of a key. -/
def Db.Refers (db : Db) (key : String) : Prop :=
  (∃ image ∈ db.images, image.key = key ∨ image.thumbKey = some key)
    ∨ (∃ workspace ∈ db.workspaces, workspace.logoKey = some key)
    ∨ ∃ user ∈ db.users, user.avatarKey = some key

@[simp]
theorem mem_filed {key : Option String} {k : String} :
  k ∈ filed key ↔ key = some k
  := by
  rw [filed, Multiset.mem_coe, Option.mem_toList]

theorem Db.mem_files {db : Db} {key : String} :
  key ∈ db.files ↔ db.Refers key
  := by
  rw [Db.files, Multiset.mem_add, Multiset.mem_add, Table.mem_sum, Table.mem_sum, Table.mem_sum,
    or_assoc]
  simp only [ProductImage.files, Multiset.mem_cons, mem_filed, Db.Refers, eq_comm (a := key)]

/-- The storage keys of an image are those of its files, if none of them is empty. -/
theorem ProductImage.storageKeys_eq {image : ProductImage} (named : "" ∉ image.files) :
  (image.storageKeys : Multiset String) = image.files
  := by
  have hkeys : image.storageKeys = image.key :: image.thumbKey.toList := by
    refine List.filter_eq_self.mpr fun key hkey => decide_eq_true ?_
    rintro rfl
    exact named (Multiset.mem_coe.mpr hkey)
  rw [hkeys]
  rfl

/-! ### Transactions that leave the files alone -/

section Keep

variable {env : Env} {s s' : Session} {db db' : Db}

/-- The files depend on the images, the logos and the avatars. -/
theorem Db.files_congr (images : db'.images = db.images)
    (logos : db'.workspaces.sum (fun workspace => filed workspace.logoKey)
      = db.workspaces.sum fun workspace => filed workspace.logoKey)
    (avatars : db'.users.sum (fun user => filed user.avatarKey)
      = db.users.sum fun user => filed user.avatarKey) :
  db'.files = db.files
  := by
  rw [Db.files, Db.files, images, logos, avatars]

/-- Changing an account, but not its avatar. -/
theorem avatars_put {users : Table User.id} {id : String} {user user' : User}
    (account : users.get id = some user) (same_id : user'.id = user.id)
    (same : user'.avatarKey = user.avatarKey) :
  (users.put user').sum (fun user => filed user.avatarKey)
    = users.sum fun user => filed user.avatarKey
  := Table.sum_put_of_mem (Table.get_eq_some_iff.mp account).1 same_id (congrArg filed same)

/-- Sending accounts back to the workspace step. -/
theorem avatars_returned (db : Db) (userIds : List String) :
  (db.returned userIds).users.sum (fun user => filed user.avatarKey)
    = db.users.sum fun user => filed user.avatarKey
  := by
  rw [Db.returned, Table.sum_map]
  refine Table.sum_congr fun user _ => ?_
  unfold User.returned
  split
  · rfl
  · rfl

/-- A new account has no avatar. -/
theorem avatars_addUnlessTaken {sub email displayName : String} {now : Time} :
  (db.addUnlessTaken (.new env.lower sub email displayName now)).files = db.files
  := by
  obtain ⟨users, hdb, rfl | ⟨fresh, _, rfl⟩⟩ :=
    db.addUnlessTaken_eq (.new env.lower sub email displayName now)
  · rw [hdb]
  · rw [hdb]
    exact Db.files_congr rfl rfl ((Table.sum_put_of_get fresh).trans (add_zero _))

/-- Changing a live workspace, but not its logo. -/
theorem logos_put {w : String} {workspace workspace' : Workspace}
    (live : db.live w = some workspace) (same_id : workspace'.id = workspace.id)
    (same : workspace'.logoKey = workspace.logoKey) :
  (db.workspaces.put workspace').sum (fun workspace => filed workspace.logoKey)
    = db.workspaces.sum fun workspace => filed workspace.logoKey
  := Table.sum_put_of_mem (Db.live_eq_some.mp live).1 same_id (congrArg filed same)

theorem Joins.files {token userId : String} (h : Joins env token userId s s') :
  s'.db.files = s.db.files
  := by
  obtain ⟨user, _, _, _, _, _, _, account, _, _, _, _, _, _, _, _, _, _, _, _, db⟩ := h
  rw [db]
  exact Db.files_congr rfl rfl (avatars_put account rfl rfl)

/-- The transactions that change no image, logo or avatar. -/
def Work.KeepsFiles : Work → Prop
  | .replaceLogo .. | .replaceAvatar .. | .deleteAccount .. | .deleteBatch .. => False
  | .purgeRows .. | .deleteProduct .. | .attachImage .. | .removeImage .. => False
  | .reorderImages .. => False
  | _ => True

/-- They leave the files alone. -/
theorem Effect.files {work : Work} (h : Effect env s s' work) (keeps : work.KeepsFiles) :
  s'.db.files = s.db.files
  := by
  cases h with
  | create user workspace _ _ _ _ _ _ account _ shape fresh _ _ _ _ _ _ _ _ db _ =>
      obtain ⟨id, created, hworkspace⟩ := shape
      rw [db]
      refine Db.files_congr rfl ?_ (avatars_put account rfl rfl)
      exact (Table.sum_put_of_get fresh).trans (by rw [hworkspace]; exact add_zero _)
  | update _ live _ _ db =>
      rw [db]
      exact Db.files_congr rfl (logos_put live rfl rfl) rfl
  | delete workspace _ _ _ live _ _ _ db =>
      rw [db]
      exact Db.files_congr rfl (logos_put live rfl rfl) (avatars_returned _ _)
  | addRole _ _ _ _ _ _ _ db => rw [db]; rfl
  | renameRole _ _ _ _ _ _ _ _ _ db => rw [db]; rfl
  | deleteRole _ _ _ _ _ _ _ _ _ _ _ db => rw [db]; rfl
  | setPermissions _ _ _ _ _ _ _ _ _ db => rw [db]; rfl
  | setMemberRole _ _ _ _ _ _ _ _ _ _ _ db => rw [db]; rfl
  | removeMember _ _ _ _ _ _ _ db =>
      rw [db]
      exact Db.files_congr rfl rfl (avatars_returned _ _)
  | transfer _ _ _ _ _ _ live _ _ _ _ _ _ _ db _ =>
      rw [db]
      exact Db.files_congr rfl (logos_put live rfl rfl) rfl
  | issue _ _ _ _ _ _ _ _ _ _ _ _ _ _ _ _ _ _ _ _ _ _ db => rw [db]; rfl
  | revoke _ _ _ _ _ _ _ _ _ db => rw [db]; rfl
  | accept joins => exact joins.files
  | register _ _ db => rw [db]; exact avatars_addUnlessTaken
  | registerAndJoin _ s₁ db _ _ joins =>
      rw [joins.files, db]
      exact avatars_addUnlessTaken
  | ensureAccount _ _ db => rw [db]; exact avatars_addUnlessTaken
  | rename user _ account _ db =>
      rw [db]
      exact Db.files_congr rfl rfl (avatars_put account rfl rfl)
  | createProduct _ _ _ _ db => rw [db]; rfl
  | updateProduct _ _ _ _ _ _ db => rw [db]; rfl
  | _ => exact keeps.elim

end Keep

/-! ### Transactions that change the files -/

/-- A transaction makes rows refer to the files `gained`, and no longer to `lost`. -/
def Trades {α : Type} (env : Env) (body : Tx α) (gained : Multiset String)
    (lost : α → Multiset String) : Prop :=
  ∀ {s s' : Session} {a : α}, "" ∉ s.db.files → Returns body env s a s' →
    s'.db.files + lost a = s.db.files + gained

section Trade

variable {env : Env}

/-- A transaction that leaves the files alone. -/
theorem Trades.keep (work : Work) (keeps : work.KeepsFiles) :
  Trades env work.body 0 fun _ => 0
  := by
  intro s s' a _ h
  rw [(Work.effect h).1.files keeps]

/-- A transaction of a body that returns a value. -/
theorem Trades.keep_value {α : Type} {body : Tx α} (work : Work) (keeps : work.KeepsFiles)
    (does : work.body = body.run') :
  Trades env body 0 fun _ => 0
  := by
  intro s s' a named h
  have returns : Returns work.body env s () s' := does ▸ Tx.returns_run'.mpr ⟨a, h⟩
  exact Trades.keep work keeps named returns

/-- The files of the images of a list are what its storage keys say. -/
theorem storageKeys_files {images : List ProductImage}
    (named : ∀ image ∈ images, "" ∉ image.files) :
  (images.flatMap ProductImage.storageKeys : Multiset String)
    = (images.map ProductImage.files).sum
  := by
  induction images with
  | nil => rfl
  | cons image images ih =>
      rw [List.flatMap_cons, ← Multiset.coe_add, List.map_cons, List.sum_cons,
        ProductImage.storageKeys_eq (named image List.mem_cons_self),
        ih fun other hother => named other (List.mem_cons_of_mem image hother)]

/-- No image has an empty key if no file has. -/
theorem named_images {db : Db} (named : "" ∉ db.files) {image : ProductImage}
    (h : image ∈ db.images) :
  "" ∉ image.files
  := by
  intro hempty
  refine named (Db.mem_files.mpr (Or.inl ⟨image, h, ?_⟩))
  rw [ProductImage.files, Multiset.mem_cons, mem_filed] at hempty
  exact hempty.imp_left Eq.symm

section Change

variable {db db' : Db} {gained lost : Multiset String}

/-- The files change as much as the images, if the logos and the avatars stay. -/
theorem Db.files_images (logos : db'.workspaces = db.workspaces) (avatars : db'.users = db.users)
    (h : db'.images.sum ProductImage.files + lost = db.images.sum ProductImage.files + gained) :
  db'.files + lost = db.files + gained
  := by
  rw [Db.files, Db.files, logos, avatars, add_right_comm, add_right_comm _ _ lost, h,
    add_right_comm _ gained, add_right_comm _ gained]

/-- The files change as much as the logos, if the images and the avatars stay. -/
theorem Db.files_logos (images : db'.images = db.images) (avatars : db'.users = db.users)
    (h : db'.workspaces.sum (fun workspace => filed workspace.logoKey) + lost
      = db.workspaces.sum (fun workspace => filed workspace.logoKey) + gained) :
  db'.files + lost = db.files + gained
  := by
  rw [Db.files, Db.files, images, avatars, add_right_comm, add_assoc (db.images.sum _), h,
    add_right_comm _ (db.users.sum _), add_assoc (db.images.sum _) _ gained]

/-- The files change as much as the avatars, if the images and the logos stay. -/
theorem Db.files_avatars (images : db'.images = db.images)
    (logos : db'.workspaces = db.workspaces)
    (h : db'.users.sum (fun user => filed user.avatarKey) + lost
      = db.users.sum (fun user => filed user.avatarKey) + gained) :
  db'.files + lost = db.files + gained
  := by
  rw [Db.files, Db.files, images, logos, add_assoc, h, add_assoc _ (db.users.sum _)]

end Change

theorem trades_attach {quotas : ProductQuotas} {workspaceId productId uploadKey : String}
    {stored : StoredImage} :
  Trades env (ProductTx.attach quotas workspaceId productId stored uploadKey)
    {stored.key, stored.thumbKey} fun _ => 0
  := by
  intro s s' image _ h
  obtain ⟨_, _, _, fresh, _, rfl⟩ := ProductTx.returns_attach.mp h
  refine Db.files_images rfl rfl ?_
  rw [add_zero]
  exact Table.sum_put_of_get fresh

/-- The files of the images of a product are those of its storage keys. -/
theorem storageKeys_imagesOf {db : Db} (named : "" ∉ db.files) (productId : String) :
  ((db.imagesOf productId).flatMap ProductImage.storageKeys : Multiset String)
    = ((db.imagesOf productId).map ProductImage.files).sum
  := storageKeys_files fun _ h => named_images named (Db.mem_imagesOf.mp h).1

theorem trades_deleteProduct {workspaceId productId : String} :
  Trades env (ProductTx.delete workspaceId productId) 0 fun product => ↑product.storageKeys
  := by
  intro s s' product named h
  obtain ⟨row, hrow, _, rfl, rfl⟩ := ProductTx.returns_delete.mp h
  obtain rfl : row.id = productId := (Table.get_eq_some_iff.mp hrow).2
  have hkeys : ((s.db.withImages row).storageKeys : Multiset String)
      = ((s.db.imagesOf row.id).map ProductImage.files).sum := storageKeys_imagesOf named row.id
  have himages : (s.db.images.filter (·.productId ≠ row.id)).sum ProductImage.files
      + ((s.db.imagesOf row.id).map ProductImage.files).sum
      = s.db.images.sum ProductImage.files + 0 := by rw [Db.sum_images, add_zero]
  rw [← hkeys] at himages
  exact Db.files_images rfl rfl himages

theorem trades_removeImage {workspaceId productId imageId : String} :
  Trades env (ProductTx.removeImage workspaceId productId imageId) 0
    fun image => ↑image.storageKeys
  := by
  intro s s' image named h
  obtain ⟨_, hfound, rfl⟩ := ProductTx.returns_removeImage.mp h
  have hmem := List.mem_of_find?_eq_some hfound
  have moved : Moved s.db.images productId
      (Product.renumber ((s.db.imagesOf productId).erase image)) :=
    .of_subperm (List.erase_subperm image _)
  have hsum : image.files + (((s.db.imagesOf productId).erase image).map ProductImage.files).sum
      = ((s.db.imagesOf productId).map ProductImage.files).sum := by
    rw [← List.sum_cons, ← List.map_cons]
    exact ((List.perm_cons_erase hmem).map _).sum_eq.symm
  have himages : (savedImages s.db.images productId
        (Product.renumber ((s.db.imagesOf productId).erase image))).sum ProductImage.files
      + image.files = s.db.images.sum ProductImage.files + 0 := by
    rw [moved.sum, Product.map_renumber fun _ _ => rfl, add_assoc, add_comm _ image.files, hsum,
      Db.sum_images, add_zero]
  rw [← ProductImage.storageKeys_eq (named_images named (Db.mem_imagesOf.mp hmem).1)] at himages
  exact Db.files_images rfl rfl himages

theorem trades_reorderImages {workspaceId productId : String} {imageIds : List String} :
  Trades env (ProductTx.reorderImages workspaceId productId imageIds) 0 fun _ => 0
  := by
  intro s s' product _ h
  obtain ⟨_, images, perm, rfl⟩ := ProductTx.returns_reorderImages h
  have moved : Moved s.db.images productId (Product.renumber images) := .of_subperm perm.subperm
  have himages : (savedImages s.db.images productId (Product.renumber images)).sum
        ProductImage.files + 0 = s.db.images.sum ProductImage.files + 0 := by
    rw [moved.sum, Product.map_renumber fun _ _ => rfl, (perm.map _).sum_eq, Db.sum_images]
  exact Db.files_images rfl rfl himages

/-- Writing a row changes a sum by the value of the row. -/
theorem sum_put_add {κ ρ : Type} [DecidableEq κ] {key : ρ → κ} {t : Table key}
    {f : ρ → Multiset String} {r r' : ρ} (h : r ∈ t) (same : key r' = key r) :
  (t.put r').sum f + f r = t.sum f + f r'
  := by
  rw [← Table.sum_put (t := t) (f := f) r', same, Table.mem_def.mp h, Option.elim_some]

/-- Erasing a row takes the value of the row from a sum. -/
theorem sum_erase_add {κ ρ : Type} [DecidableEq κ] {key : ρ → κ} {t : Table key}
    {f : ρ → Multiset String} {k : κ} {r : ρ} (h : t.get k = some r) :
  (t.erase k).sum f + f r = t.sum f + 0
  := by
  rw [add_zero, ← Table.sum_erase (t := t) (f := f) k, h, Option.elim_some]

theorem trades_replaceLogo {workspaceId userId : String} {key url : Option String} :
  Trades env (WorkspaceTx.replaceLogo workspaceId key url userId) (filed key)
    fun result => filed result.2
  := by
  intro s s' result _ h
  obtain ⟨workspace, live, _, hprevious, rfl⟩ := WorkspaceTx.returns_replaceLogo h
  dsimp only
  rw [hprevious]
  exact Db.files_logos rfl rfl (sum_put_add (Db.live_eq_some.mp live).1 rfl)

theorem trades_replaceAvatar {userId : String} {key url : Option String} :
  Trades env (AccountTx.replaceAvatar userId key url) (filed key) fun result => filed result.2
  := by
  intro s s' result _ h
  obtain ⟨user, account, hprevious, rfl⟩ := AccountTx.returns_replaceAvatar h
  dsimp only
  rw [hprevious]
  exact Db.files_avatars rfl rfl (sum_put_add (Table.get_eq_some_iff.mp account).1 rfl)

theorem trades_delete {userId : String} :
  Trades env (AccountTx.delete userId) 0 fun user => filed user.avatarKey
  := by
  intro s s' user _ h
  obtain ⟨_, _, account, rfl⟩ := AccountTx.returns_delete h
  exact Db.files_avatars rfl rfl (sum_erase_add account)

theorem trades_deleteBatch {workspaceId : String} {limit : ℕ} :
  Trades env (PurgeTx.deleteBatch workspaceId limit) 0 fun result => ↑result.2
  := by
  intro s s' result named h
  obtain ⟨rfl, rfl⟩ := PurgeTx.returns_deleteBatch.mp h
  generalize s.db.firstProducts env workspaceId limit = ids
  have hkeys : (s.db.keysOf ids : Multiset String)
      = (s.db.images.filter fun image => image.productId ∈ ids).sum ProductImage.files := by
    rw [Db.keysOf, storageKeys_files, Table.sum_filter_rows]
    intro image himage
    exact named_images named (Table.mem_rows.mp (List.mem_of_mem_filter himage))
  have himages : (s.db.images.filter (·.productId ∉ ids)).sum ProductImage.files
      + (s.db.images.filter fun image => image.productId ∈ ids).sum ProductImage.files
      = s.db.images.sum ProductImage.files + 0 := by
    rw [add_zero, add_comm,
      ← Table.sum_filter_add (t := s.db.images) fun image => image.productId ∈ ids]
    simp only [← decide_not]
  rw [← hkeys] at himages
  exact Db.files_images rfl rfl himages

theorem trades_purgeRows {workspaceId : String} :
  Trades env (PurgeTx.purgeRows workspaceId) 0 filed
  := by
  intro s s' key _ h
  obtain ⟨_, rfl, rfl⟩ | ⟨workspace, hget, _, rfl, rfl⟩ := PurgeTx.returns_purgeRows.mp h
  · rfl
  · obtain rfl := (Table.get_eq_some_iff.mp hget).2
    exact Db.files_logos rfl rfl (sum_erase_add hget)

end Trade

/-! ### The storage -/

/-- How the storage answers: an upload is stored under fresh keys or not at all, and deleting
succeeds. -/
def MediaRequest.Stores : {β : Type} → MediaRequest β → Finset String → Except Failure β →
    Finset String → Prop
  | _, .pendingSize _, objects, _, objects' => objects' = objects
  | _, .storeImage _, objects, .ok stored, objects' =>
      (stored.key ∉ objects ∧ stored.thumbKey ∉ objects ∧ stored.key ≠ stored.thumbKey)
        ∧ (stored.key ≠ "" ∧ stored.thumbKey ≠ "")
        ∧ objects' = insert stored.key (insert stored.thumbKey objects)
  | _, .storeSquare _, objects, .ok key, objects' =>
      key ∉ objects ∧ key ≠ "" ∧ objects' = insert key objects
  | _, .delete key, objects, y, objects' => y = .ok () ∧ objects' = objects.erase key
  | _, .storeImage _, objects, .error _, objects' => objects' = objects
  | _, .storeSquare _, objects, .error _, objects' => objects' = objects

/-- How the services outside answer: announcing a change succeeds. -/
def Stores {β : Type} (request : Request MediaRequest β) (objects : Finset String)
    (y : Except Failure β) (objects' : Finset String) : Prop :=
  match request with
  | .media request => request.Stores objects y objects'
  | .now => (∃ now, y = .ok now) ∧ objects' = objects
  | .publish .. => y = .ok () ∧ objects' = objects
  | _ => objects' = objects

/-- Reading whom a change is announced to. -/
inductive Request.Announces : {β : Type} → Request MediaRequest β → Prop
  | recipients {workspaceId : String} : Announces (.read (Members.userIds workspaceId))

/-- Calls run one after another. A query or an attempt at a transaction may fail in any way, but
for reading whom a change is announced to. -/
def tended (env : Env) : Setting MediaRequest (Finset String) :=
  ⟨env, fun _ => False, fun request => request.OfDatabase ∧ ¬ request.Announces, Stores,
    fun _ _ _ => True⟩

/-- The objects in the storage are the files that rows refer to and those of `extra`, each of
them once. -/
structure Extra (extra : Multiset String) (w : World (Finset String)) : Prop where
  stored : w.db.files + extra = w.outside.val
  named : "" ∉ w.outside

section Rules

variable {env : Env} {w w' : World (Finset String)} {extra : Multiset String} {α β : Type}

/-- While nobody runs a transaction the files are as they were. -/
theorem Extra.wait (h : Extra extra w) {s : Session}
    (idle : Reaches (tended env).env (tended env).Others w.session s) :
  Extra extra (w.wait s)
  := by
  refine ⟨?_, h.named⟩
  rw [show (w.wait s).db = w.db from idle.idle fun _ => not_false]
  exact h.stored

/-- No row refers to a file without a key. -/
theorem Extra.named_files (h : Extra extra w) :
  "" ∉ w.db.files
  := by
  intro hempty
  refine h.named (Finset.mem_val.mp ?_)
  rw [← h.stored]
  exact Multiset.mem_add.mpr (Or.inl hempty)

/-- A transaction that is committed trades files that were extra for others that are. -/
theorem Extra.commit {body : Tx α} {gained : Multiset String} {lost : α → Multiset String}
    (trades : Trades env body gained lost) (h : Extra (gained + extra) w) {s s' : Session} {a : α}
    (idle : Reaches (tended env).env (tended env).Others w.session s)
    (returns : Returns body env s a s') :
  Extra (lost a + extra) (w.commit s s')
  := by
  have hs : Extra (gained + extra) (w.wait s) := h.wait idle
  refine ⟨?_, h.named⟩
  have htrade := trades hs.named_files returns
  show s'.db.files + (lost a + extra) = w.outside.val
  rw [← add_assoc, htrade, add_assoc]
  exact hs.stored

/-- What a transaction leads to. -/
theorem Extra.transacts {body : Tx α} {gained : Multiset String} {lost : α → Multiset String}
    (h : Extra (gained + extra) w) (trades : Trades env body gained lost) :
  Leads (tended env).machine (transaction body) w fun y w' => match y with
    | .ok a => Extra (lost a + extra) w'
    | .error _ => Extra (gained + extra) w'
  := by
  refine Always.of_ends fun y w' run => ?_
  cases Setting.ends_transaction run with
  | commit idle returns _ => exact h.commit trades idle returns
  | fail idle => exact h.wait idle

/-- The requests that leave the files alone. -/
def Request.Quiet (env : Env) : {β : Type} → Request MediaRequest β → Prop
  | _, .attempt body => Trades env body 0 fun _ => 0
  | _, .media (.pendingSize _) => True
  | _, .media _ => False
  | _, _ => True

theorem Extra.quiet {request : Request MediaRequest β} (h : Extra extra w)
    (quiet : request.Quiet env) {y : Except Failure β}
    (answer : (tended env).machine.Answers request w y w') :
  Extra extra w'
  := by
  obtain ⟨_, answer⟩ := answer
  cases answer with
  | read idle => exact h.wait idle
  | commit idle returns _ =>
      rw [← zero_add extra] at h ⊢
      exact h.commit quiet idle returns
  | raise idle _ => exact h.wait idle
  | violate idle _ _ => exact h.wait idle
  | @outside _ _ s _ objects idle outside answer =>
      have same : objects = w.outside := by
        cases request with
        | read => exact absurd trivial outside
        | attempt => exact absurd trivial outside
        | media request =>
            cases request with
            | pendingSize => exact answer
            | _ => exact quiet.elim
        | now => exact answer.2
        | publish => exact answer.2
        | _ => exact answer
      rw [same]
      exact h.wait idle
  | fault idle _ => exact h.wait idle

/-- What asks only for what leaves the files alone. -/
theorem Extra.asks {x : Service MediaRequest α} (h : Extra extra w)
    (asks : x.Asks (Request.Quiet env)) :
  Leads (tended env).machine x w fun _ => Extra extra
  := .of_asks asks (fun _ _ => trivial) (fun quiet h answer => h.quiet quiet answer) h

/-- How the storage answers a request. -/
theorem answers_media {request : MediaRequest β} {y : Except Failure β}
    (h : (tended env).machine.Answers (.media request) w y w') :
  ∃ s objects, Reaches (tended env).env (tended env).Others w.session s
    ∧ request.Stores w.outside y objects ∧ w' = ⟨s, objects, w.commits⟩
  := by
  have outside : ¬ (Request.media request).OfDatabase := not_false
  obtain ⟨_, s, idle, ⟨objects, answer, rfl⟩ | ⟨fails, _⟩⟩ := Setting.answers_outside outside h
  · exact ⟨s, objects, idle, answer, rfl⟩
  · exact fails.1.elim

/-- A fresh object is extra. -/
theorem Extra.store {s : Session} {objects : Finset String} {commits : List (Db × Db)}
    (h : Extra extra ⟨s, objects, commits⟩) {key : String} (fresh : key ∉ objects)
    (named : key ≠ "") :
  Extra (key ::ₘ extra) ⟨s, insert key objects, commits⟩
  := by
  refine ⟨?_, fun hempty => ?_⟩
  · rw [Finset.insert_val_of_notMem fresh, ← Multiset.singleton_add, ← Multiset.singleton_add key,
      add_left_comm]
    exact congrArg _ h.stored
  · rcases Finset.mem_insert.mp hempty with hkey | hempty
    · exact named hkey.symm
    · exact h.named hempty

/-- An upload that is stored is extra. -/
theorem Extra.storeImage (h : Extra extra w) (uploadKey : String) :
  Leads (tended env).machine (perform (.media (.storeImage uploadKey))) w fun y w' => match y with
    | .ok stored => Extra ({stored.key, stored.thumbKey} + extra) w'
    | .error _ => Extra extra w'
  := by
  refine Always.perform trivial fun y w' answer => ?_
  obtain ⟨s, objects, idle, stores, rfl⟩ := answers_media answer
  have hs := h.wait idle
  cases y with
  | ok stored =>
      obtain ⟨⟨fresh, thumb_fresh, distinct⟩, ⟨named, thumb_named⟩, rfl⟩ := stores
      show Extra (stored.key ::ₘ stored.thumbKey ::ₘ 0 + extra) _
      rw [Multiset.cons_add, Multiset.cons_add, zero_add]
      refine (hs.store thumb_fresh thumb_named).store (fun hkey => ?_) named
      rcases Finset.mem_insert.mp hkey with hkey | hkey
      · exact distinct hkey
      · exact fresh hkey
  | error e =>
      obtain rfl : objects = w.outside := stores
      exact hs

theorem Extra.storeSquare (h : Extra extra w) (uploadKey : String) :
  Leads (tended env).machine (perform (.media (.storeSquare uploadKey))) w fun y w' => match y with
    | .ok key => Extra (key ::ₘ extra) w'
    | .error _ => Extra extra w'
  := by
  refine Always.perform trivial fun y w' answer => ?_
  obtain ⟨s, objects, idle, stores, rfl⟩ := answers_media answer
  have hs := h.wait idle
  cases y with
  | ok key =>
      obtain ⟨fresh, named, rfl⟩ := stores
      exact hs.store fresh named
  | error e =>
      obtain rfl : objects = w.outside := stores
      exact hs

/-- A file that is extra is deleted. -/
theorem Extra.delete {key : String} (h : Extra (key ::ₘ extra) w) :
  Leads (tended env).machine (perform (.media (.delete key))) w fun y w' =>
    (∃ u, y = .ok u) ∧ Extra extra w'
  := by
  refine Always.perform trivial fun y w' answer => ?_
  obtain ⟨s, objects, idle, ⟨rfl, rfl⟩, rfl⟩ := answers_media answer
  have hs := h.wait idle
  refine ⟨⟨(), rfl⟩, ?_, fun hempty => hs.named (Finset.mem_of_mem_erase hempty)⟩
  have hstored : w.outside.val = (w.wait s).db.files + key ::ₘ extra := hs.stored.symm
  show (w.wait s).db.files + extra = (w.outside.erase key).val
  rw [Finset.erase_val, hstored, Multiset.add_cons, Multiset.erase_cons_head]

/-- Files that are extra are deleted. -/
theorem Extra.deleteAll {urlFor : String → String} {keys : List String}
    (h : Extra (↑keys + extra) w) :
  Leads (tended env).machine ((MediaStorage.port urlFor).deleteAll keys) w fun y w' =>
    (∃ u, y = .ok u) ∧ Extra extra w'
  := by
  induction keys generalizing w with
  | nil => exact ⟨⟨(), rfl⟩, zero_add extra ▸ h⟩
  | cons key keys ih =>
      rw [← Multiset.cons_coe, Multiset.cons_add] at h
      exact h.delete.bind_ok fun _ w₁ h₁ => ih h₁

/-- The file of a key that is extra is deleted, if there is one. -/
theorem Extra.deleteSome {urlFor : String → String} {key : Option String}
    (h : Extra (filed key + extra) w) :
  Leads (tended env).machine ((MediaStorage.port urlFor).deleteSome key) w fun y w' =>
    (∃ u, y = .ok u) ∧ Extra extra w'
  := by
  cases key with
  | none => exact ⟨⟨(), rfl⟩, zero_add extra ▸ h⟩
  | some key =>
      have hstored : Extra (key ::ₘ extra) w := h
      have named : key ≠ "" := by
        rintro rfl
        refine hstored.named (Finset.mem_val.mp ?_)
        rw [← hstored.stored]
        exact Multiset.mem_add.mpr (Or.inr (Multiset.mem_cons_self _ _))
      rw [MediaStorage.deleteSome_some named]
      exact hstored.delete

/-- Storing an upload, if there is one. -/
theorem Extra.storeSome {urlFor : String → String} {uploadKey : Option String}
    (h : Extra extra w) :
  Leads (tended env).machine ((MediaStorage.port urlFor).storeSome uploadKey) w fun y w' =>
    match y with
    | .ok key => Extra (filed key + extra) w'
    | .error _ => Extra extra w'
  := by
  unfold MediaStorage.storeSome
  split
  · refine (h.storeSquare _).bind (fun key w₁ h₁ => h₁) fun e w₁ h₁ => h₁
  · show Extra (0 + extra) w
    rw [zero_add]
    exact h

/-- A request that the services outside do answer. -/
theorem Extra.answered {request : Request MediaRequest β} (h : Extra extra w)
    (outside : ¬ request.OfDatabase)
    (answers : ∀ {y objects}, Stores request w.outside y objects →
      (∃ b, y = .ok b) ∧ objects = w.outside) :
  Leads (tended env).machine (perform request) w fun y w' =>
    (∃ b, y = .ok b) ∧ Extra extra w'
  := by
  refine Always.perform trivial fun y w' answer => ?_
  obtain ⟨_, s, idle, ⟨objects, stores, rfl⟩ | ⟨fails, _⟩⟩ :=
    Setting.answers_outside outside answer
  · obtain ⟨hy, rfl⟩ := answers stores
    exact ⟨hy, h.wait idle⟩
  · exact absurd fails.1 outside

/-- Announcing a change succeeds, and leaves the files alone. -/
theorem Extra.notify (h : Extra extra w) (action productId workspaceId : String) :
  Leads (tended env).machine (ProductService.notify action productId workspaceId) w fun y w' =>
    (∃ u, y = .ok u) ∧ Extra extra w'
  := by
  have recipients : Leads (tended env).machine (read (Members.userIds workspaceId)) w
      fun y w' => (∃ ids, y = .ok ids) ∧ Extra extra w' := by
    refine Always.of_ends fun y w' run => ?_
    obtain ⟨s, idle, rfl, rfl | ⟨⟨_, silent⟩, _⟩⟩ := Setting.ends_read run
    · exact ⟨⟨_, rfl⟩, h.wait idle⟩
    · exact absurd .recipients silent
  refine recipients.bind_ok fun ids w₁ h₁ => ?_
  refine Always.bind_ok (h₁.answered not_false fun answer => answer) fun now w₂ h₂ => ?_
  exact h₂.answered not_false fun answer => ⟨⟨_, answer.1⟩, answer.2⟩

end Rules

/-! ### The calls that deal with files -/

section Calls

variable {env : Env} {w w' : World (Finset String)} {urlFor : String → String}
  {quotas : ProductQuotas}

/-- A call that ends with no file extra. -/
theorem leads_discarded {α : Type} {x : Service MediaRequest α}
    (h : Leads (tended env).machine x w fun _ => Extra 0) :
  Leads (tended env).machine (Call.program.discarded x) w fun _ => Extra 0
  := h.bind (fun _ _ h₁ => h₁) fun _ _ h₁ => h₁

/-- Announcing a change comes last. -/
theorem Extra.announced {α : Type} {a : α} (h : Extra 0 w) (action productId workspaceId : String) :
  Leads (tended env).machine
    (ProductService.notify action productId workspaceId >>= fun _ => pure a) w fun _ => Extra 0
  := (h.notify action productId workspaceId).bind_ok fun _ _ h₁ => h₁

/-- A transaction that drops files, after which they are extra. -/
theorem Extra.drops {α β : Type} {body : Tx α} {lost : α → Multiset String} (h : Extra 0 w)
    (trades : Trades env body 0 lost) {rest : α → Service MediaRequest β}
    (next : ∀ a w₁, Extra (lost a + 0) w₁ →
      Leads (tended env).machine (rest a) w₁ fun _ => Extra 0) :
  Leads (tended env).machine (transaction body >>= rest) w fun _ => Extra 0
  := by
  have start : Extra (0 + 0) w := by rwa [zero_add]
  refine (start.transacts trades).bind next fun e w₁ (h₁ : Extra (0 + 0) w₁) => ?_
  rwa [zero_add] at h₁

/-- A transaction that drops files, after which the change is announced and they are deleted. -/
theorem Extra.dropped {α : Type} {body : Tx α} {keys : α → List String} (h : Extra 0 w)
    (trades : Trades env body 0 fun a => ↑(keys a)) (action productId workspaceId : String) :
  Leads (tended env).machine
    (do
      let a ← transaction body
      ProductService.notify action productId workspaceId
      (MediaStorage.port urlFor).deleteAll (keys a)) w fun _ => Extra 0
  := by
  refine h.drops trades fun a w₁ h₁ => ?_
  refine (h₁.notify action productId workspaceId).bind_ok fun _ w₂ h₂ => ?_
  exact h₂.deleteAll.mono fun _ _ h₃ => h₃.2

/-- Discarding an image deletes its files. -/
theorem Extra.discard {stored : StoredImage} {extra : Multiset String}
    (h : Extra ({stored.key, stored.thumbKey} + extra) w) :
  Leads (tended env).machine (ProductService.discard ⟨.port urlFor, quotas⟩ stored) w fun y w' =>
    (∃ u, y = .ok u) ∧ Extra extra w'
  := by
  have hstored : Extra (stored.key ::ₘ stored.thumbKey ::ₘ extra) w := by
    rw [← zero_add extra, ← Multiset.cons_add, ← Multiset.cons_add]
    exact h
  exact hstored.delete.bind_ok fun _ w₁ h₁ => h₁.delete

/-- Attaching an image: its files are referred to, or they are deleted. -/
theorem Extra.attach {workspaceId productId uploadKey : String} {stored : StoredImage}
    (h : Extra ({stored.key, stored.thumbKey} + 0) w) :
  Leads (tended env).machine
    (ProductService.attach ⟨.port urlFor, quotas⟩ workspaceId productId stored uploadKey) w
    fun _ => Extra 0
  := by
  refine Always.outcome_bind (h.transacts trades_attach) fun y w₁ h₁ => ?_
  split
  · exact h₁.announced _ _ _
  · refine (Extra.discard h₁).bind_ok fun _ w₂ h₂ => ?_
    refine Always.bind (h₂.asks (.perform trivial)) (fun winner w₃ h₃ => ?_) fun e w₃ h₃ => h₃
    split
    · exact h₃
    · exact h₃
  · exact (Extra.discard h₁).bind_ok fun _ w₂ h₂ => h₂

theorem Extra.confirmImage (h : Extra 0 w) (workspaceId productId uploadKey : String) :
  Leads (tended env).machine
    (ProductService.confirmImage ⟨.port urlFor, quotas⟩ workspaceId productId uploadKey) w
    fun _ => Extra 0
  := by
  have step : ∀ {α β : Type} {x : Service MediaRequest α} {f : α → Service MediaRequest β}
      {w : World (Finset String)}, Extra 0 w → x.Asks (Request.Quiet env) →
      (∀ a w₁, Extra 0 w₁ → Leads (tended env).machine (f a) w₁ fun _ => Extra 0) →
      Leads (tended env).machine (x >>= f) w fun _ => Extra 0 :=
    fun h asks next => (h.asks asks).bind next fun _ _ h₁ => h₁
  refine step h (.perform trivial) fun known w h => ?_
  refine step h .ofExcept fun _ w h => ?_
  refine step h (.perform trivial) fun existing w h => ?_
  split
  · exact h
  · refine step h (.perform trivial) fun size w h => ?_
    refine step h (.perform trivial) fun used w h => ?_
    refine step h .ofExcept fun _ w h => ?_
    refine step h (.perform trivial) fun count w h => ?_
    refine step h .ofExcept fun _ w h => ?_
    refine (h.storeImage uploadKey).bind (fun stored w₁ h₁ => ?_) fun e w₁ h₁ => h₁
    exact Extra.attach h₁

/-- Replacing the file of a row: the new one is stored, and then the old one is no longer referred
to, or the new one is not. -/
theorem Extra.replaced {α β : Type} {uploadKey : Option String} (h : Extra 0 w)
    (body : Option String → Tx (α × Option String))
    (trades : ∀ key, Trades env (body key) (filed key) fun result => filed result.2)
    {rest : Option String → Except Failure (α × Option String) → Service MediaRequest β}
    (done : ∀ key a previous w, Extra (filed previous + 0) w →
      Leads (tended env).machine (rest key (.ok (a, previous))) w fun _ => Extra 0)
    (undone : ∀ key e w, Extra (filed key + 0) w →
      Leads (tended env).machine (rest key (.error e)) w fun _ => Extra 0) :
  Leads (tended env).machine ((MediaStorage.port urlFor).storeSome uploadKey >>= fun key =>
    (transaction (body key)).outcome >>= rest key) w fun _ => Extra 0
  := by
  refine h.storeSome.bind (fun key w₁ h₁ => ?_) fun e w₁ h₁ => h₁
  refine Always.outcome_bind (h₁.transacts (trades key)) fun y w₂ h₂ => ?_
  cases y with
  | ok result => exact done key result.1 result.2 w₂ h₂
  | error e => exact undone key e w₂ h₂

theorem Extra.setLogo (h : Extra 0 w) (webBaseUrl workspaceId : String)
    (uploadKey : Option String) (userId : String) :
  Leads (tended env).machine
    (WorkspaceService.setLogo ⟨.port urlFor, webBaseUrl⟩ workspaceId uploadKey userId) w
    fun _ => Extra 0
  := by
  refine Always.bind (h.asks (.perform trivial)) (fun _ w₁ h₁ => ?_) fun _ _ h₁ => h₁
  refine h₁.replaced (fun key => WorkspaceTx.replaceLogo workspaceId key
    ((key.filter (· ≠ "")).map urlFor) userId) (fun key => trades_replaceLogo) ?_ ?_
  · exact fun _ view _ w₂ h₂ => (Extra.deleteSome h₂).bind_ok fun _ _ h₃ => h₃
  · exact fun _ e w₂ h₂ => (Extra.deleteSome h₂).bind_ok fun _ _ h₃ => h₃

theorem Extra.setAvatar (h : Extra 0 w) (lower : String → String) (userId : String)
    (uploadKey : Option String) :
  Leads (tended env).machine (AccountService.setAvatar ⟨.port urlFor, lower⟩ userId uploadKey) w
    fun _ => Extra 0
  := by
  refine Always.bind (h.asks (.perform trivial)) (fun _ w₁ h₁ => ?_) fun _ _ h₁ => h₁
  refine h₁.replaced (fun key => AccountTx.replaceAvatar userId key
    ((key.filter (· ≠ "")).map urlFor)) (fun key => trades_replaceAvatar) ?_ ?_
  · exact fun _ user _ w₂ h₂ => (Extra.deleteSome h₂).bind_ok fun _ _ h₃ =>
      h₃.asks (.perform trivial)
  · exact fun _ e w₂ h₂ => (Extra.deleteSome h₂).bind_ok fun _ _ h₃ => h₃

/-- A purge deletes the files of each batch of products, however many batches there are. -/
theorem Extra.purgeProducts (h : Extra 0 w) (workspaceId : String) (rounds : ℕ) :
  Leads (tended env).machine (WorkspacePurge.purgeProducts (.port urlFor) workspaceId rounds) w
    fun _ => Extra 0
  := by
  induction rounds generalizing w with
  | zero => exact h
  | succ rounds ih =>
      refine h.drops trades_deleteBatch fun result w₁ h₁ => ?_
      refine h₁.deleteAll.bind_ok fun _ w₂ h₂ => ?_
      split
      · exact h₂
      · exact ih h₂

theorem Extra.purge (h : Extra 0 w) (rounds : ℕ) (workspaceId : String) :
  Leads (tended env).machine (WorkspacePurge.purge (.port urlFor) rounds workspaceId) w
    fun _ => Extra 0
  := by
  refine (h.purgeProducts workspaceId rounds).bind (fun _ w₁ h₁ => ?_) fun _ _ h₁ => h₁
  refine h₁.drops trades_purgeRows fun key w₂ h₂ => ?_
  exact h₂.deleteSome.mono fun _ _ h₃ => h₃.2

theorem Extra.purgeEach (h : Extra 0 w) (rounds : ℕ) (workspaceIds : List String) :
  Leads (tended env).machine (WorkspacePurge.purgeEach (.port urlFor) rounds workspaceIds) w
    fun _ => Extra 0
  := by
  induction workspaceIds generalizing w with
  | nil => exact h
  | cons workspaceId workspaceIds ih =>
      exact (h.purge rounds workspaceId).bind (fun _ _ h₁ => ih h₁) fun _ _ h₁ => h₁

/-- An account is deleted after its workspaces, and its avatar after it. -/
theorem Extra.deleteAccount (h : Extra 0 w) (lower : String → String) (rounds : ℕ)
    (userId : String) :
  Leads (tended env).machine (AccountService.delete ⟨.port urlFor, lower⟩ rounds userId) w
    fun _ => Extra 0
  := by
  refine Always.bind (h.asks (.perform trivial)) (fun _ w₁ h₁ => ?_) fun _ _ h₁ => h₁
  refine Always.bind (h₁.asks (.perform trivial)) (fun workspaceIds w₂ h₂ => ?_) fun _ _ h₂ => h₂
  refine (h₂.purgeEach rounds workspaceIds).bind (fun _ w₃ h₃ => ?_) fun _ _ h₃ => h₃
  refine h₃.drops trades_delete fun user w₄ h₄ => ?_
  refine h₄.deleteSome.bind_ok fun _ w₅ h₅ => ?_
  exact h₅.asks (Asks.bind (.outcome (.perform trivial)) fun _ => trivial)

/-- A call that runs alone leaves no file extra, however it ends. -/
theorem Extra.call {services : Services MediaRequest} (port : services.media = .port urlFor)
    (h : Extra 0 w) (call : Call) :
  Leads (tended env).machine (call.program services) w fun _ => Extra 0
  := by
  obtain ⟨media, quotas, webBaseUrl, lower, rounds⟩ := services
  obtain rfl : media = .port urlFor := port
  cases call with
  | createWorkspace name slug userId =>
      exact h.asks (asks_discarded (asks_duplicateAs (asks_transaction
        (Trades.keep_value (.create name slug userId) trivial rfl))))
  | updateWorkspace workspaceId name slug userId =>
      exact h.asks (asks_discarded (asks_duplicateAs (asks_transaction
        (Trades.keep_value (.update workspaceId name slug userId) trivial rfl))))
  | setLogo workspaceId uploadKey userId =>
      exact leads_discarded (h.setLogo webBaseUrl workspaceId uploadKey userId)
  | deleteWorkspace workspaceId userId =>
      exact h.asks (asks_transaction (Trades.keep (.delete workspaceId userId) trivial))
  | saveRole workspaceId roleId name userId =>
      exact h.asks (asks_discarded (asks_duplicateAs (asks_transaction
        (Trades.keep_value (.saveRole workspaceId roleId name userId) trivial rfl))))
  | deleteRole workspaceId roleId userId =>
      exact h.asks (asks_transaction (Trades.keep (.deleteRole workspaceId roleId userId) trivial))
  | setPermissions workspaceId roleId permissions userId =>
      exact h.asks (asks_transaction
        (Trades.keep (.setPermissions workspaceId roleId permissions userId) trivial))
  | setMemberRole workspaceId memberId roleId userId =>
      exact h.asks (asks_transaction
        (Trades.keep (.setMemberRole workspaceId memberId roleId userId) trivial))
  | removeMember workspaceId memberId userId =>
      exact h.asks (asks_transaction
        (Trades.keep (.removeMember workspaceId memberId userId) trivial))
  | transfer workspaceId targetId userId =>
      exact h.asks (asks_transaction (Trades.keep (.transfer workspaceId targetId userId) trivial))
  | invite workspaceId email roleId userId =>
      refine h.asks (asks_discarded (Asks.bind (asks_transaction
        (Trades.keep_value (.issue workspaceId email roleId userId) trivial rfl)) fun _ => ?_))
      exact Asks.bind (.outcome (.perform trivial)) fun _ => trivial
  | revokeInvitation workspaceId invitationId userId =>
      exact h.asks (asks_transaction
        (Trades.keep (.revoke workspaceId invitationId userId) trivial))
  | acceptInvitation token userId =>
      exact h.asks (asks_discarded (asks_transaction
        (Trades.keep_value (.accept token userId) trivial rfl)))
  | createProduct workspaceId name sku price status description =>
      refine leads_discarded (h.drops (Trades.keep_value
        (.createProduct quotas workspaceId name sku price status description) trivial rfl) ?_)
      exact fun _ _ h₁ => Extra.announced h₁ _ _ _
  | updateProduct workspaceId productId changes ifMatch =>
      refine leads_discarded (h.drops (Trades.keep_value
        (.updateProduct workspaceId productId changes ifMatch) trivial rfl) ?_)
      exact fun _ _ h₁ => Extra.announced h₁ _ _ _
  | deleteProduct workspaceId productId => exact h.dropped trades_deleteProduct _ _ _
  | confirmImage workspaceId productId uploadKey =>
      exact leads_discarded (h.confirmImage workspaceId productId uploadKey)
  | removeImage workspaceId productId imageId => exact h.dropped trades_removeImage _ _ _
  | reorderImages workspaceId productId imageIds =>
      refine leads_discarded (h.drops trades_reorderImages ?_)
      exact fun _ _ h₁ => Extra.announced h₁ _ _ _
  | purge workspaceId => exact h.purge rounds workspaceId
  | purgeAll =>
      refine leads_discarded ?_
      refine Always.bind (h.asks (.perform trivial)) (fun ids w₁ h₁ => ?_) fun _ _ h₁ => h₁
      exact (h₁.purgeEach rounds ids).bind (fun _ _ h₂ => h₂) fun _ _ h₂ => h₂
  | register email password displayName invitationToken =>
      refine h.asks (Asks.bind (.outcome (.perform trivial)) fun outcome => ?_)
      split
      · trivial
      · trivial
      · trivial
      · exact asks_transaction (Trades.keep (.register _ _ displayName invitationToken) trivial)
  | ensureAccount sub accessToken =>
      refine h.asks (asks_discarded (Asks.bind (.perform trivial) fun known => ?_))
      split
      · trivial
      · refine Asks.bind (.perform trivial) fun (tokenSub, email) => ?_
        refine Asks.bind .ofExcept fun _ => ?_
        refine Asks.bind (asks_transaction (Trades.keep (.ensureAccount sub email) trivial))
          fun _ => Asks.bind (.perform trivial) fun known => ?_
        split
        · trivial
        · trivial
  | rename userId displayName =>
      exact h.asks (asks_discarded (Asks.bind (asks_transaction
        (Trades.keep_value (.rename userId displayName) trivial rfl)) fun _ => .perform trivial))
  | setAvatar userId uploadKey =>
      exact leads_discarded (h.setAvatar lower userId uploadKey)
  | deleteAccount userId => exact h.deleteAccount lower rounds userId

/-- After every call, however it ended, the storage has the files that rows refer to, and no
others. -/
theorem files_follow_rows {services : Services MediaRequest}
    (port : services.media = .port urlFor)
    (run : (tended env).Served services ⟨.start, ∅, []⟩ w) (key : String) :
  key ∈ w.outside ↔ w.db.Refers key
  := by
  have none_extra : Extra 0 w := by
    induction run with
    | start => exact ⟨rfl, Finset.notMem_empty _⟩
    | call _ ends ih => exact (ih.call port _).ends ends
  rw [← Db.mem_files, ← Finset.mem_val, ← none_extra.stored, add_zero]

end Calls

/-- Ada registers and sets her avatar, which is stored. -/
theorem files_follow_rows_of_setAvatar :
  ∃ (services : Services MediaRequest) (w : World (Finset String)),
    (tended .sample).Served services ⟨.start, ∅, []⟩ w
    ∧ "media/a.webp" ∈ w.outside ∧ w.db.Refers "media/a.webp"
  := by
  obtain ⟨s, registered, unique, required, returned, unique'⟩ :
      ∃ s, Returns (AccountTx.register "ada" "ada@acme.test" "Ada" none) .sample .start () s
        ∧ s.db.Unique
        ∧ ((require "ada" "profile.update" "ada").run .sample s.done).1 = .ok ()
        ∧ ((AccountTx.replaceAvatar "ada" (some "media/a.webp") (some "media/a.webp")).run .sample
            s.done).1.map Prod.snd = .ok none
        ∧ ((AccountTx.replaceAvatar "ada" (some "media/a.webp") (some "media/a.webp")).run .sample
            s.done).2.db.Unique :=
    ⟨((AccountTx.register "ada" "ada@acme.test" "Ada" none).run .sample .start).2,
      .of_run (by decide +kernel), by decide +kernel, by decide +kernel, by decide +kernel,
      by decide +kernel⟩
  obtain ⟨⟨user, previous⟩, hresult, rfl⟩ := Except.map_eq_ok.mp returned
  obtain ⟨s', replaced, unique'⟩ :
      ∃ s', Returns (AccountTx.replaceAvatar "ada" (some "media/a.webp") (some "media/a.webp"))
          .sample s.done (user, none) s' ∧ s'.db.Unique := ⟨_, .of_run hresult, unique'⟩
  let services : Services MediaRequest := ⟨.port id, ⟨1, 1⟩, "https://app.test", id, 1⟩
  let m := tended .sample
  let w₀ : World (Finset String) := ⟨.start, ∅, []⟩
  let w₁ : World (Finset String) := w₀.commit .start s
  let w₂ : World (Finset String) := ⟨s.done, {"media/a.webp"}, w₁.commits⟩
  have registers : Ends m.machine
      ((Call.register "ada@acme.test" "" "Ada" none).program services) w₀ (.ok ()) w₁ := by
    refine ends_bind.mpr (Or.inl ⟨.ok "ada", w₀, ends_outcome.mpr ⟨.ok "ada", ?_, rfl⟩, ?_⟩)
    · exact ends_perform.mpr ⟨trivial, .outside .refl not_false rfl⟩
    · exact Setting.commits trivial .refl registered unique
  have stores : Ends m.machine (services.media.storeSome (some "upload")) w₁
      (.ok (some "media/a.webp")) w₂ := by
    refine ends_bind.mpr (Or.inl ⟨"media/a.webp", w₂, ends_perform.mpr ⟨trivial, ?_⟩, .done _ _⟩)
    exact .outside .refl not_false ⟨Finset.notMem_empty _, by decide, rfl⟩
  have sets : Ends m.machine ((Call.setAvatar "ada" (some "upload")).program services) w₁ (.ok ())
      (w₂.commit s.done s') := by
    refine Setting.ends_discarded.mpr ⟨.ok ⟨user, s'.db.belongsToAny user.id⟩, ?_, rfl⟩
    refine ends_bind.mpr (Or.inl ⟨(), w₁, Setting.reads required trivial .refl, ?_⟩)
    refine ends_bind.mpr (Or.inl ⟨_, w₂, stores, ?_⟩)
    have commits := Setting.commits (m := m) (w := w₂) trivial .refl replaced unique'
    refine ends_bind.mpr (Or.inl ⟨_, _, ends_outcome.mpr ⟨_, commits, rfl⟩, ?_⟩)
    refine ends_bind.mpr (Or.inl ⟨(), _, .done () _, ?_⟩)
    exact Setting.reads rfl trivial .refl
  have served : m.Served services w₀ (w₂.commit s.done s') := .call (.call .start registers) sets
  have stored : "media/a.webp" ∈ (w₂.commit s.done s').outside := Finset.mem_singleton_self _
  exact ⟨services, _, served, stored, (files_follow_rows rfl served _).mp stored⟩

end MvpApi
