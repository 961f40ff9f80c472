import MvpApi.Runs.Images
import MvpApi.Runs.Requests

/-!
# What the rows of the API look like

The schemas check what is sent, and the tables hold texts without limits. Here the checks of the
schemas are shown to hold of the rows, in every database that requests reach, however many are
served at once: names and slugs are as they should be, products can be shown, and pictures are
objects of the storage of media, served where it serves them.
-/

set_option autoImplicit false

namespace MvpApi

open Exec Program Optimistic

variable {api : Api} {env : Env} {s s' : Session} {work : Work}

/-! ### Rows -/

structure User.Sound (api : Api) (user : User) : Prop where
  name : HasLength 0 100 user.displayName
  avatar : IsPicture api user.avatarKey user.avatarUrl

structure Workspace.Sound (api : Api) (workspace : Workspace) : Prop where
  name : IsWorkspaceName workspace.name
  slug : workspace.deletedAt = none → isValidSlug workspace.slug = true
  logo : IsPicture api workspace.logoKey workspace.logoUrl

structure Role.Sound (role : Role) : Prop where
  length : HasLength 0 50 role.name
  named : ¬ Blank role.name

/-- The fields of a product are within their bounds. -/
def ProductRow.Sound (row : ProductRow) : Prop :=
  ProductInput.Valid ⟨row.name, row.sku, row.price, row.status, row.description⟩

structure ProductImage.Sound (image : ProductImage) : Prop where
  key : IsMediaKey image.key
  thumbKey : ∀ key ∈ image.thumbKey, IsMediaKey key
  contentType : image.contentType = "image/webp"

/-- The rows are such as the API lets through. -/
structure Db.Sound (api : Api) (db : Db) : Prop where
  users : ∀ user ∈ db.users, user.Sound api
  workspaces : ∀ workspace ∈ db.workspaces, workspace.Sound api
  roles : ∀ role ∈ db.roles, role.Sound
  products : ∀ row ∈ db.products, row.Sound
  images : ∀ image ∈ db.images, image.Sound

theorem Db.Sound.empty :
  Db.empty.Sound api
  := by
  constructor
  all_goals simp [Db.empty]

/-! ### Accounts -/

namespace User.Sound

theorem new {lower : String → String} {sub email displayName : String} {now : Time}
    (h : HasLength 0 100 displayName) :
  (User.new lower sub email displayName now).Sound api
  where
  name := ⟨Nat.zero_le _, (length_strip_le _).trans h.2⟩
  avatar := ⟨nofun, rfl⟩

theorem returned {user : User} (h : user.Sound api) (belongs : String → Bool)
    (userIds : List String) :
  (user.returned belongs userIds).Sound api
  := by
  unfold User.returned
  split
  · exact ⟨h.name, h.avatar⟩
  · exact h

end User.Sound

/-- One account is written. -/
theorem users_put {users : Table User.id} {user : User} (h : ∀ user ∈ users, user.Sound api)
    (sound : user.Sound api) :
  ∀ user' ∈ users.put user, user'.Sound api
  := by
  intro user' hmem
  obtain rfl | ⟨hmem, _⟩ := Table.mem_put.mp hmem
  · exact sound
  · exact h user' hmem

theorem users_addUnlessTaken {db : Db} {user : User} (h : ∀ user ∈ db.users, user.Sound api)
    (sound : user.Sound api) :
  ∀ user' ∈ (db.addUnlessTaken user).users, user'.Sound api
  := by
  unfold Db.addUnlessTaken
  split
  · exact h
  · exact users_put h sound

theorem sound_returned {db : Db} {userIds : List String} (h : ∀ user ∈ db.users, user.Sound api) :
  ∀ user' ∈ (db.returned userIds).users, user'.Sound api
  := by
  intro user' hmem
  have written : user' ∈ db.users.map _ fun user => user.returned_id db.belongsToAny userIds := hmem
  obtain ⟨user, huser, rfl⟩ := Table.mem_map.mp written
  exact (h user huser).returned _ _

/-- An account of the table is sound. -/
theorem sound_of_get {users : Table User.id} {userId : String} {user : User}
    (h : ∀ user ∈ users, user.Sound api) (account : users.get userId = some user) :
  user.Sound api
  := h user (Table.get_eq_some_iff.mp account).1

theorem Joins.sound {token userId : String} (joins : Joins env token userId s s')
    (h : ∀ user ∈ s.db.users, user.Sound api) :
  ∀ user ∈ s'.db.users, user.Sound api
  := by
  obtain ⟨user, invitation, workspace, role, tick, joinedAt, allowed, account, stored, hash, tick_ge,
    tick_lt, usable, addressed, live, assigned, own, unprotected, outside, locked, db⟩ := joins
  have sound := sound_of_get h account
  rw [db]
  exact users_put h ⟨sound.name, sound.avatar⟩

/-- Joining changes neither workspaces nor roles. -/
theorem Joins.keeps {token userId : String} (joins : Joins env token userId s s') :
  s'.db.workspaces = s.db.workspaces ∧ s'.db.roles = s.db.roles
  := by
  cases joins with
  | intro _ _ _ _ _ _ _ _ _ _ _ _ _ _ _ _ _ _ _ _ db =>
      rw [db]
      exact ⟨rfl, rfl⟩

theorem Effect.users_sound (effect : Effect env s s' work) (accepted : work.Accepted api)
    (h : ∀ user ∈ s.db.users, user.Sound api) :
  ∀ user ∈ s'.db.users, user.Sound api
  := by
  cases effect with
  | create user _ _ _ _ _ _ _ account _ _ _ _ _ _ _ _ _ _ _ db _ =>
      have sound := sound_of_get h account
      rw [db]
      exact users_put h ⟨sound.name, sound.avatar⟩
  | update _ _ _ _ db => rw [db]; exact h
  | replaceLogo _ _ _ _ db => rw [db]; exact h
  | delete _ _ _ _ _ _ _ _ db => rw [db]; exact sound_returned h
  | addRole _ _ _ _ _ _ _ db => rw [db]; exact h
  | renameRole _ _ _ _ _ _ _ _ _ db => rw [db]; exact h
  | deleteRole _ _ _ _ _ _ _ _ _ _ _ db => rw [db]; exact h
  | setPermissions _ _ _ _ _ _ _ _ _ db => rw [db]; exact h
  | setMemberRole _ _ _ _ _ _ _ _ _ _ _ db => rw [db]; exact h
  | removeMember _ _ _ _ _ _ _ db => rw [db]; exact sound_returned h
  | transfer _ _ _ _ _ _ _ _ _ _ _ _ _ _ db _ => rw [db]; exact h
  | issue _ _ _ _ _ _ _ _ _ _ _ _ _ _ _ _ _ _ _ _ _ _ db => rw [db]; exact h
  | revoke _ _ _ _ _ _ _ _ _ db => rw [db]; exact h
  | accept joins => exact joins.sound h
  | register now _ db => rw [db]; exact users_addUnlessTaken h (.new accepted)
  | registerAndJoin now s₁ db _ _ joins =>
      refine joins.sound ?_
      rw [db]
      exact users_addUnlessTaken h (.new accepted)
  | ensureAccount now _ db =>
      rw [db]
      exact users_addUnlessTaken h (.new (by decide))
  | rename user _ account _ db =>
      have sound := sound_of_get h account
      rw [db]
      exact users_put h ⟨accepted.1, sound.avatar⟩
  | replaceAvatar user account _ db =>
      have sound := sound_of_get h account
      rw [db]
      exact users_put h ⟨sound.name, accepted⟩
  | deleteAccount _ _ _ _ _ db =>
      rw [db]
      exact fun user hmem => h user (Table.mem_erase.mp hmem).1
  | deleteBatch _ db => rw [db]; exact h
  | purgeNothing _ same => rw [same]; exact h
  | purgeRows _ _ _ _ db => rw [db]; exact h
  | createProduct _ _ _ _ db => rw [db]; exact h
  | updateProduct _ _ _ _ _ _ db => rw [db]; exact h
  | deleteProduct _ _ _ _ db => rw [db]; exact h
  | attachImage _ _ _ _ _ _ _ _ db => rw [db]; exact h
  | removeImage _ _ _ _ _ _ db => rw [db]; exact h
  | reorderImages _ _ _ _ _ _ db => rw [db]; exact h

/-! ### Workspaces -/

theorem workspaces_put {workspaces : Table Workspace.id} {workspace : Workspace}
    (h : ∀ workspace ∈ workspaces, workspace.Sound api) (sound : workspace.Sound api) :
  ∀ workspace' ∈ workspaces.put workspace, workspace'.Sound api
  := by
  intro workspace' hmem
  obtain rfl | ⟨hmem, _⟩ := Table.mem_put.mp hmem
  · exact sound
  · exact h workspace' hmem

theorem sound_of_live {db : Db} {workspaceId : String} {workspace : Workspace}
    (h : ∀ workspace ∈ db.workspaces, workspace.Sound api)
    (live : db.live workspaceId = some workspace) :
  workspace.Sound api
  := h workspace (Db.live_eq_some.mp live).1

/-- A name stays one when it is stripped. -/
theorem IsWorkspaceName.strip {name : String} (h : IsWorkspaceName name) :
  IsWorkspaceName (strip name)
  := ⟨⟨Nat.zero_le _, (length_strip_le _).trans h.length.2⟩, mt blank_strip.mp h.named⟩

theorem Effect.workspaces_sound (effect : Effect env s s' work) (accepted : work.Accepted api)
    (h : ∀ workspace ∈ s.db.workspaces, workspace.Sound api) :
  ∀ workspace ∈ s'.db.workspaces, workspace.Sound api
  := by
  cases effect with
  | create _ _ _ _ _ _ _ _ _ _ shape _ _ _ _ _ _ _ _ _ db _ =>
      obtain ⟨id, created, rfl⟩ := shape
      rw [db]
      exact workspaces_put h ⟨accepted.1.strip, fun _ => accepted.2, nofun, rfl⟩
  | update workspace live _ _ db =>
      have sound := sound_of_live h live
      rw [db]
      exact workspaces_put h ⟨accepted.1.strip, fun _ => accepted.2, sound.logo⟩
  | replaceLogo workspace live _ _ db =>
      have sound := sound_of_live h live
      rw [db]
      exact workspaces_put h ⟨sound.name, sound.slug, accepted⟩
  | delete workspace now newId _ live _ _ _ db =>
      have sound := sound_of_live h live
      rw [db]
      exact workspaces_put h ⟨sound.name, nofun, sound.logo⟩
  | addRole _ _ _ _ _ _ _ db => rw [db]; exact h
  | renameRole _ _ _ _ _ _ _ _ _ db => rw [db]; exact h
  | deleteRole _ _ _ _ _ _ _ _ _ _ _ db => rw [db]; exact h
  | setPermissions _ _ _ _ _ _ _ _ _ db => rw [db]; exact h
  | setMemberRole _ _ _ _ _ _ _ _ _ _ _ db => rw [db]; exact h
  | removeMember _ _ _ _ _ _ _ db => rw [db]; exact h
  | transfer workspace _ _ _ _ _ live _ _ _ _ _ _ _ db _ =>
      have sound := sound_of_live h live
      rw [db]
      exact workspaces_put h ⟨sound.name, sound.slug, sound.logo⟩
  | issue _ _ _ _ _ _ _ _ _ _ _ _ _ _ _ _ _ _ _ _ _ _ db => rw [db]; exact h
  | revoke _ _ _ _ _ _ _ _ _ db => rw [db]; exact h
  | accept joins => exact joins.keeps.1 ▸ h
  | register now _ db => rw [db, Db.addUnlessTaken_workspaces]; exact h
  | registerAndJoin now s₁ db _ _ joins =>
      rw [joins.keeps.1, db, Db.addUnlessTaken_workspaces]
      exact h
  | ensureAccount now _ db => rw [db, Db.addUnlessTaken_workspaces]; exact h
  | rename _ _ _ _ db => rw [db]; exact h
  | replaceAvatar _ _ _ db => rw [db]; exact h
  | deleteAccount _ _ _ _ _ db => rw [db]; exact h
  | deleteBatch _ db => rw [db]; exact h
  | purgeNothing _ same => rw [same]; exact h
  | purgeRows _ _ _ _ db =>
      rw [db]
      exact fun workspace hmem => h workspace (Table.mem_erase.mp hmem).1
  | createProduct _ _ _ _ db => rw [db]; exact h
  | updateProduct _ _ _ _ _ _ db => rw [db]; exact h
  | deleteProduct _ _ _ _ db => rw [db]; exact h
  | attachImage _ _ _ _ _ _ _ _ db => rw [db]; exact h
  | removeImage _ _ _ _ _ _ db => rw [db]; exact h
  | reorderImages _ _ _ _ _ _ db => rw [db]; exact h

/-! ### Roles -/

theorem roles_put {roles : Table Role.id} {role : Role} (h : ∀ role ∈ roles, role.Sound)
    (sound : role.Sound) :
  ∀ role' ∈ roles.put role, role'.Sound
  := by
  intro role' hmem
  obtain rfl | ⟨hmem, _⟩ := Table.mem_put.mp hmem
  · exact sound
  · exact h role' hmem

/-- The name of a role that the schema lets through stays one when it is stripped. -/
theorem Role.Sound.of_accepted {role : Role} {name : String}
    (accepted : HasLength 2 50 name ∧ matchesRole name.toList = true)
    (named : role.name = strip name) :
  role.Sound
  := by
  obtain ⟨length, pattern⟩ := accepted
  refine ⟨⟨Nat.zero_le _, ?_⟩, ?_⟩
  · rw [named]
    exact (length_strip_le _).trans length.2
  · rw [named, blank_strip, blank_iff]
    intro blank
    cases hname : name.toList with
    | nil =>
        rw [hname] at pattern
        cases pattern
    | cons c cs =>
        rw [hname] at pattern blank
        have letter : 'a' ≤ c ∧ c ≤ 'z' := by
          simp only [matchesRole, Bool.and_eq_true, decide_eq_true_eq] at pattern
          exact pattern.1
        have space := blank c List.mem_cons_self
        have least : 97 ≤ c.toNat := letter.1
        have most : c.toNat ≤ 122 := letter.2
        simp only [isSpace, Bool.or_eq_true, Bool.and_eq_true, decide_eq_true_eq, beq_iff_eq] at space
        omega

/-- The system roles are named in the program. -/
theorem NewRoles.sound {stored : Table Role.id} {workspaceId : String} {new : List Role}
    (added : WorkspaceTx.NewRoles stored workspaceId systemRoles new) {role : Role}
    (hrole : role ∈ new) :
  role.Sound
  := by
  have named : role.name ∈ systemRoles.map Prod.fst :=
    added.names ▸ List.mem_map_of_mem hrole
  have sound : ∀ name ∈ systemRoles.map Prod.fst, HasLength 0 50 name ∧ ¬ Blank name := by decide
  exact ⟨(sound role.name named).1, (sound role.name named).2⟩

theorem Effect.roles_sound (effect : Effect env s s' work) (accepted : work.Accepted api)
    (h : ∀ role ∈ s.db.roles, role.Sound) :
  ∀ role ∈ s'.db.roles, role.Sound
  := by
  cases effect with
  | create _ _ _ _ _ _ _ _ _ _ _ _ added roles _ _ _ _ _ _ db _ =>
      rw [db]
      intro role hrole
      obtain hrole | hrole := (roles role).mp hrole
      · exact h role hrole
      · exact NewRoles.sound added hrole
  | update _ _ _ _ db => rw [db]; exact h
  | replaceLogo _ _ _ _ db => rw [db]; exact h
  | delete _ _ _ _ _ _ _ _ db => rw [db]; exact h
  | addRole _ _ _ _ _ _ _ db =>
      rw [db]
      exact roles_put h (.of_accepted accepted rfl)
  | renameRole _ _ _ _ _ _ _ _ _ db =>
      rw [db]
      exact roles_put h (.of_accepted accepted rfl)
  | deleteRole _ _ _ _ _ _ _ _ _ _ _ db =>
      rw [db]
      exact fun role hmem => h role (Table.mem_erase.mp hmem).1
  | setPermissions _ _ _ _ _ _ _ _ _ db => rw [db]; exact h
  | setMemberRole _ _ _ _ _ _ _ _ _ _ _ db => rw [db]; exact h
  | removeMember _ _ _ _ _ _ _ db => rw [db]; exact h
  | @transfer workspaceId _ _ _ _ _ admin _ _ _ _ _ _ _ _ admin_mem _ db _ =>
      rw [db]
      obtain ⟨_, rfl, _⟩ | ⟨_, shape, rfl, _⟩ := admin_mem
      · exact h
      · have sound : Role.Sound (.system admin.id workspaceId adminRole) :=
          ⟨(by decide : HasLength 0 50 adminRole), (by decide : ¬ Blank adminRole)⟩
        exact roles_put h (shape ▸ sound)
  | issue _ _ _ _ _ _ _ _ _ _ _ _ _ _ _ _ _ _ _ _ _ _ db => rw [db]; exact h
  | revoke _ _ _ _ _ _ _ _ _ db => rw [db]; exact h
  | accept joins => exact joins.keeps.2 ▸ h
  | register now _ db => rw [db, Db.addUnlessTaken_roles]; exact h
  | registerAndJoin now s₁ db _ _ joins =>
      rw [joins.keeps.2, db, Db.addUnlessTaken_roles]
      exact h
  | ensureAccount now _ db => rw [db, Db.addUnlessTaken_roles]; exact h
  | rename _ _ _ _ db => rw [db]; exact h
  | replaceAvatar _ _ _ db => rw [db]; exact h
  | deleteAccount _ _ _ _ _ db => rw [db]; exact h
  | deleteBatch _ db => rw [db]; exact h
  | purgeNothing _ same => rw [same]; exact h
  | purgeRows _ _ _ _ db =>
      rw [db]
      exact fun role hmem => h role (Table.mem_filter.mp hmem).1
  | createProduct _ _ _ _ db => rw [db]; exact h
  | updateProduct _ _ _ _ _ _ db => rw [db]; exact h
  | deleteProduct _ _ _ _ db => rw [db]; exact h
  | attachImage _ _ _ _ _ _ _ _ db => rw [db]; exact h
  | removeImage _ _ _ _ _ _ db => rw [db]; exact h
  | reorderImages _ _ _ _ _ _ db => rw [db]; exact h

/-! ### Products -/

theorem products_put {products : Table ProductRow.id} {row : ProductRow}
    (h : ∀ row ∈ products, row.Sound) (sound : row.Sound) :
  ∀ row' ∈ products.put row, row'.Sound
  := by
  intro row' hmem
  obtain rfl | ⟨hmem, _⟩ := Table.mem_put.mp hmem
  · exact sound
  · exact h row' hmem

/-- What a partial update changes is valid, and the rest was. -/
theorem ProductRow.Sound.edited {row : ProductRow} {changes : ProductChanges} (h : row.Sound)
    (valid : changes.Valid) :
  (ProductTx.edited row changes).Sound
  := by
  obtain ⟨name, sku, price, status, description⟩ := changes
  refine ⟨?_, ?_, ?_, ?_⟩
  · cases name with
    | none => exact h.name
    | some name => exact valid.name name rfl
  · cases sku with
    | none => exact h.sku
    | some sku => exact fun sku' hsku => valid.sku sku' (congrArg some hsku)
  · cases price with
    | none => exact h.price
    | some price => exact valid.price price rfl
  · cases description with
    | none => exact h.description
    | some description =>
        exact fun description' hdescription =>
          valid.description description' (congrArg some hdescription)

/-- What `Effect` leaves out of the two transactions that write products is in what they
return. -/
theorem Work.products_sound {u : Unit} (returns : Returns work.body env s u s')
    (accepted : work.Accepted api) (h : ∀ row ∈ s.db.products, row.Sound) :
  ∀ row ∈ s'.db.products, row.Sound
  := by
  have effect := (Work.effect returns).1
  by_cases on : work.OnProducts
  · cases effect with
    | @createProduct quotas workspaceId name sku price status description =>
        obtain ⟨product, returns⟩ := Tx.returns_run'.mp returns
        obtain ⟨_, _, _, _, rfl⟩ := ProductTx.returns_create.mp returns
        exact products_put h accepted.2
    | @updateProduct workspaceId productId changes ifMatch =>
        obtain ⟨product, returns⟩ := Tx.returns_run'.mp returns
        obtain ⟨row, stored, _, _, written⟩ := ProductTx.returns_update.mp returns
        have sound : row.Sound := h row (Table.get_eq_some_iff.mp stored).1
        obtain ⟨_, _, rfl⟩ | ⟨_, _, _, rfl⟩ := written
        · exact h
        · exact products_put h (sound.edited accepted)
    | deleteProduct _ _ _ _ db =>
        rw [db]
        exact fun row hmem => h row (Table.mem_erase.mp hmem).1
    | attachImage _ _ _ _ _ _ _ _ db => rw [db]; exact h
    | removeImage _ _ _ _ _ _ db => rw [db]; exact h
    | reorderImages _ _ _ _ _ _ db => rw [db]; exact h
    | deleteBatch _ db =>
        rw [db]
        exact fun row hmem => h row (Table.mem_filter.mp hmem).1
    | purgeNothing _ same => rw [same]; exact h
    | purgeRows _ _ _ _ db => rw [db]; exact h
    | _ => exact on.elim
  · rw [(effect.same_products on).1]
    exact h

/-! ### Images -/

theorem ProductImage.Sound.moved {old image : ProductImage} (h : old.Sound)
    (moved : image = { old with position := image.position }) :
  image.Sound
  := by
  rw [moved]
  exact ⟨h.key, h.thumbKey, h.contentType⟩

/-- Images are moved, and the others stay. -/
theorem images_moved {stored : Table ProductImage.id} {productId : String}
    {images : List ProductImage} (h : ∀ image ∈ stored, image.Sound)
    (moved : ∀ image ∈ images, ∃ old ∈ stored, old.productId = productId
      ∧ image = { old with position := image.position }) :
  ∀ image ∈ images.foldl Table.put (stored.filter (·.productId ≠ productId)), image.Sound
  := by
  intro image hmem
  obtain hmem | hmem := Table.mem_foldl_put hmem
  · obtain ⟨old, hold, _, same⟩ := moved image hmem
    exact (h old hold).moved same
  · exact h image (Table.mem_filter.mp hmem).1

theorem Work.images_sound {u : Unit} (returns : Returns work.body env s u s')
    (accepted : work.Accepted api) (h : ∀ image ∈ s.db.images, image.Sound) :
  ∀ image ∈ s'.db.images, image.Sound
  := by
  have effect := (Work.effect returns).1
  by_cases on : work.OnProducts
  · cases effect with
    | createProduct _ _ _ _ db => rw [db]; exact h
    | updateProduct _ _ _ _ _ _ db => rw [db]; exact h
    | deleteProduct _ _ _ _ db =>
        rw [db]
        exact fun image hmem => h image (Table.mem_filter.mp hmem).1
    | attachImage =>
        obtain ⟨image, returns⟩ := Tx.returns_run'.mp returns
        obtain ⟨_, _, _, _, _, rfl⟩ := ProductTx.returns_attach.mp returns
        obtain ⟨_, proper, _⟩ := accepted
        intro image hmem
        obtain rfl | ⟨hmem, _⟩ := Table.mem_put.mp hmem
        · exact ⟨proper.key, fun key hkey => by cases hkey; exact proper.thumbKey,
            proper.contentType⟩
        · exact h image hmem
    | removeImage _ _ _ _ moved _ db => rw [db]; exact images_moved h moved
    | reorderImages _ _ _ _ moved _ db => rw [db]; exact images_moved h moved
    | deleteBatch _ db =>
        rw [db]
        exact fun image hmem => h image (Table.mem_filter.mp hmem).1
    | purgeNothing _ same => rw [same]; exact h
    | purgeRows _ _ _ _ db => rw [db]; exact h
    | _ => exact on.elim
  · rw [(effect.same_products on).2]
    exact h

/-! ### Runs -/

/-- What a transaction that the API lets through leaves is sound. -/
theorem Work.sound {u : Unit} (returns : Returns work.body env s u s')
    (accepted : work.Accepted api) (h : s.db.Sound api) :
  s'.db.Sound api
  where
  users := (Work.effect returns).1.users_sound accepted h.users
  workspaces := (Work.effect returns).1.workspaces_sound accepted h.workspaces
  roles := (Work.effect returns).1.roles_sound accepted h.roles
  products := Work.products_sound returns accepted h.products
  images := Work.images_sound returns accepted h.images

/-- Transactions that the API lets through keep the rows sound, in any number and order. -/
theorem Reaches.sound {s₀ : Session} (run : Reaches env (Work.Accepted api) s₀ s)
    (start : s₀.db.Sound api) :
  s.db.Sound api
  := by
  induction run with
  | refl => exact start
  | @commit s s' work u run accepted returns unique ih =>
      have sound : s'.db.Sound api := Work.sound returns accepted ih
      exact sound
  | wait _ _ same _ ih => exact same ▸ ih

/-- The rows of a transaction, merged into the rows that others have committed. -/
theorem Db.Sound.merge {base final current : Db} (hfinal : final.Sound api)
    (hcurrent : current.Sound api) :
  (Db.merge base final current).Sound api
  := by
  constructor
  · intro user hmem
    obtain ⟨_, hmem⟩ | ⟨_, hmem⟩ := Table.mem_merge.mp hmem
    · exact hcurrent.users user hmem
    · exact hfinal.users user hmem
  · intro workspace hmem
    obtain ⟨_, hmem⟩ | ⟨_, hmem⟩ := Table.mem_merge.mp hmem
    · exact hcurrent.workspaces workspace hmem
    · exact hfinal.workspaces workspace hmem
  · intro role hmem
    obtain ⟨_, hmem⟩ | ⟨_, hmem⟩ := Table.mem_merge.mp hmem
    · exact hcurrent.roles role hmem
    · exact hfinal.roles role hmem
  · intro row hmem
    obtain ⟨_, hmem⟩ | ⟨_, hmem⟩ := Table.mem_merge.mp hmem
    · exact hcurrent.products row hmem
    · exact hfinal.products row hmem
  · intro image hmem
    obtain ⟨_, hmem⟩ | ⟨_, hmem⟩ := Table.mem_merge.mp hmem
    · exact hcurrent.images image hmem
    · exact hfinal.images image hmem

/-- The transactions that the API lets through, overlapping in any way. -/
def accepting (api : Api) (env : Env) : System Db RowId Work :=
  { system env with
    Runs := fun work base final footprint =>
      Runs env work base final footprint ∧ work.Accepted api }

/-- However transactions that the API lets through overlap, the rows stay sound. -/
theorem accepting_sound {init : Db} (start : init.Sound api)
    {commits : List (Commit Db RowId Work)} (history : History (accepting api env) init commits) :
  (current init commits).Sound api
  := by
  refine (history.kept (P := (Db.Sound api)) (G := fun _ _ _ _ => True) start ?_).current
  rintro work base final footprint now hbase hnow ⟨runs, accepted⟩ _ _
  obtain ⟨s, s', _, rfl, _, returns, rfl, _⟩ := runs
  exact ⟨(Work.sound returns accepted hbase).merge hnow, trivial⟩

/-- A sound product can be shown. -/
theorem ProductRow.Sound.shown {row : ProductRow} (h : row.Sound) (db : Db)
    (urlFor : String → String) :
  ∃ shown, ProductRead.of (db.withImages row) urlFor = .ok shown
  := by
  have name : HasLength 1 200 row.name := h.name
  exact ⟨_, if_pos name⟩

/-! ### Requests -/

/-- However requests are served at once, the rows change only by transactions of a kind to which
whatever these requests may run belongs, and by those of others. -/
theorem Interleaved.reaches_served {X ι : Type} [DecidableEq ι] {m : Setting BucketRequest X}
    {incoming : ι → Incoming} {route : ι → Route} {x : ι → Handler} {w w' : World X}
    {ok : Work → Prop} (kind : ∀ i work, work.Requested api (incoming i) (route i) → ok work)
    (run : Interleaved (fun _ => m.machine) (fun i => (route i).serve api (incoming i)) w x w') :
  Reaches m.env (fun work => m.Others work ∨ ok work) w.session w'.session
  := by
  have runs (i : ι) : ((route i).serve api (incoming i)).Runs ok fun _ => True :=
    (runs_serve api (incoming i) (route i)).mono (kind i) fun _ => id
  exact (Interleaved.reaches runs run).1

/-- Requests are served at once in any interleaving, whatever the services outside answer and
whichever requests to them and to the database fail, and then transactions of the API overlap in any
way: the rows stay sound, and all products can be shown. -/
theorem rows_sound {X ι : Type} [DecidableEq ι] {m : Setting BucketRequest X}
    {incoming : ι → Incoming} {route : ι → Route} {x : ι → Handler} {w w' : World X}
    (others : ∀ work, m.Others work → work.Accepted api) (start : w.db.Sound api)
    (run : Interleaved (fun _ => m.machine) (fun i => (route i).serve api (incoming i)) w x w')
    {commits : List (Commit Db RowId Work)}
    (history : History (accepting api m.env) w'.db commits) :
  (current w'.db commits).Sound api
    ∧ ∀ row ∈ (current w'.db commits).products, ∃ shown,
        ProductRead.of ((current w'.db commits).withImages row) api.urlFor = .ok shown
  := by
  have reaches : Reaches m.env (Work.Accepted api) w.session w'.session :=
    (Interleaved.reaches_served (fun _ _ requested => requested.commits.accepted) run).mono
      fun work h => h.elim (others work) id
  have sound := accepting_sound (reaches.sound start) history
  exact ⟨sound, fun row hrow => (sound.products row hrow).shown _ _⟩

/-- Requests are served while nobody else runs transactions, and the user pool gives new accounts
the id `ada`. -/
def serving : Setting BucketRequest Unit :=
  .alone .sample fun request _ y _ => match request, y with
    | .createAccount _ _, y => y = .ok "ada"
    | _, _ => False

/-- The registration of Ada. -/
def registerAda : Route := .register ⟨"Ada@acme.test", "password", "Ada", none⟩

/-- The registration of Ada is served. -/
theorem serves_register :
  ∃ w' : World Unit, Ends serving.machine (registerAda.serve .sample .sample) ⟨.start, (), []⟩
      (.ok { Route.reply 201 .registered with headers := [("Cache-Control", "no-store")] }) w'
    ∧ (w'.db.users.get "ada").map User.displayName = some "Ada"
  := by
  let body := AccountTx.register "ada" "ada@acme.test" "Ada" none
  obtain ⟨returned, hunique, named⟩ : (body.run .sample .start).1 = .ok ()
      ∧ (body.run .sample .start).2.db.Unique
      ∧ ((body.run .sample .start).2.db.users.get "ada").map User.displayName = some "Ada" := by
    decide +kernel
  let w : World Unit := ⟨.start, (), []⟩
  refine ⟨w.commit .start (body.run .sample .start).2, ?_, named⟩
  have created : Ends serving.machine (perform (.createAccount "ada@acme.test" "password") :
      Service BucketRequest String) w (.ok "ada") w :=
    ends_perform.mpr ⟨trivial, .outside .refl id rfl⟩
  have committed : Ends serving.machine (transaction body : Service BucketRequest Unit) w (.ok ())
      (w.commit .start (body.run .sample .start).2) :=
    Setting.commits trivial .refl (.of_run returned) hunique
  have registered : Ends serving.machine (Api.sample.services.accounts.register "ada@acme.test"
      "password" "Ada" none) w (.ok ()) (w.commit .start (body.run .sample .start).2) := by
    have lower : Api.sample.services.accounts.lower "ada@acme.test" = "ada@acme.test" := by
      decide +kernel
    unfold AccountService.register
    rw [lower]
    exact ends_bind.mpr (Or.inl ⟨_, w, ends_outcome.mpr ⟨_, created, rfl⟩, committed⟩)
  have valid : (⟨"Ada@acme.test", "password", "Ada", none⟩ : RegisterInput).validate
      Api.sample.emailStr Api.sample.lower = some ⟨"ada@acme.test", "password", "Ada", none⟩ := by
    decide +kernel
  have origin : ¬ (Incoming.sample.path ∉ unguardedPaths ∧ Incoming.sample.origin ≠ "secret") := by
    decide +kernel
  have guard : Api.sample.settings.originGuard = some "secret" := by decide +kernel
  have unlimited : rateLimit Incoming.sample.hit "auth:register" Incoming.sample.clientAddress
      = .ok () := rfl
  unfold Route.serve Route.verifyOrigin
  rw [guard]
  dsimp only
  rw [if_neg origin]
  unfold registerAda Route.program Route.limited Route.gated
  rw [unlimited]
  dsimp only
  rw [valid]
  refine ends_bind.mpr (Or.inl ⟨_, _, ends_outcome.mpr
    ⟨_, ends_bind.mpr (Or.inl ⟨(), _, registered, .done _ _⟩), rfl⟩, ?_⟩)
  exact .done _ _

/-- The registration of Ada is served, while a second one is on its way. -/
theorem interleaves_register :
  ∃ (x : Bool → Handler) (w' : World Unit),
    Interleaved (fun _ => serving.machine) (fun _ => registerAda.serve .sample .sample)
      ⟨.start, (), []⟩ x w'
    ∧ (w'.db.users.get "ada").map User.displayName = some "Ada"
  := by
  obtain ⟨w', ends, named⟩ := serves_register
  have run : Interleaved (fun _ : Bool => serving.machine)
      (fun _ => registerAda.serve .sample .sample) ⟨.start, (), []⟩
      (Function.update _ true (ofExcept _)) w' :=
    Interleaved.start.ends (i := true) rfl ends
  exact ⟨_, w', run, named⟩

/-- The rows after the registration of Ada are sound. -/
theorem rows_sound_of_register :
  ∃ (x : Bool → Handler) (w' : World Unit),
    Interleaved (fun _ => serving.machine) (fun _ => registerAda.serve .sample .sample)
      ⟨.start, (), []⟩ x w'
    ∧ (w'.db.users.get "ada").map User.displayName = some "Ada" ∧ w'.db.Sound .sample
  := by
  obtain ⟨x, w', run, named⟩ := interleaves_register
  exact ⟨x, w', run, named, (rows_sound (fun _ => False.elim) Db.Sound.empty run .start).1⟩

end MvpApi
