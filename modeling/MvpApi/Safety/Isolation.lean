import MvpApi.Safety.References

/-!
# Isolation of the workspaces

`Agree w db db'` says that the rows of all workspaces other than `w` are the same in two
states of the database. A transaction on the workspace `w` leaves them the same, whatever ids
it is given: what it changes under a bare id of a role or of a product it has found in `w`
before, and the rows refer to rows of their own workspace only.
-/

set_option autoImplicit false

namespace MvpApi

/-- The rows of all workspaces other than `w` are the same. -/
structure Agree (w : String) (db db' : Db) : Prop where
  workspaces : Table.Same (·.id ≠ w) db.workspaces db'.workspaces
  roles : Table.Same (·.workspaceId ≠ w) db.roles db'.roles
  permissions : ∀ role ∈ db.roles, role.workspaceId ≠ w →
    Table.Same (·.roleId = role.id) db.rolePermissions db'.rolePermissions
  members : Table.Same (·.workspaceId ≠ w) db.members db'.members
  invitations : Table.Same (·.workspaceId ≠ w) db.invitations db'.invitations
  products : Table.Same (·.workspaceId ≠ w) db.products db'.products
  images : Table.Same (·.workspaceId ≠ w) db.images db'.images

theorem Agree.refl (w : String) (db : Db) :
  Agree w db db
  := ⟨.refl _ _, .refl _ _, fun _ _ _ => .refl _ _, .refl _ _, .refl _ _, .refl _ _, .refl _ _⟩

theorem Agree.symm {w : String} {db db' : Db} (h : Agree w db db') :
  Agree w db' db
  where
  workspaces := h.workspaces.symm
  roles := h.roles.symm
  permissions role hr hw := (h.permissions role ((h.roles role hw).mp hr) hw).symm
  members := h.members.symm
  invitations := h.invitations.symm
  products := h.products.symm
  images := h.images.symm

/-! ### Images and their products -/

/-- Every image is of a product of its workspace. -/
def Db.Catalogued (db : Db) : Prop :=
  ∀ image ∈ db.images, ∃ row ∈ db.products,
    row.id = image.productId ∧ row.workspaceId = image.workspaceId

section Catalogued

variable {env : Env} {s s' : Session} {work : Work} {db : Db}

theorem Db.Catalogued.same {db' : Db} (h : db.Catalogued) (images : db'.images = db.images)
    (products : db'.products = db.products) :
  db'.Catalogued
  := by
  intro image hi
  rw [images] at hi
  rw [products]
  exact h image hi

/-- Products and their images are deleted together. -/
theorem Db.Catalogued.delete (h : db.Catalogued) {db' : Db} (gone : String → Bool)
    (images : ∀ image ∈ db'.images, image ∈ db.images ∧ gone image.productId = false)
    (products : ∀ row ∈ db.products, gone row.id = false → row ∈ db'.products) :
  db'.Catalogued
  := by
  intro image hi
  obtain ⟨hi, hkept⟩ := images image hi
  obtain ⟨row, hr, hid, hw⟩ := h image hi
  exact ⟨row, products row hr (hid ▸ hkept), hid, hw⟩

/-- The images of a product are written again with other positions. -/
theorem Db.Catalogued.move (h : db.Catalogued) {productId : String} {images : List ProductImage}
    (moved : ∀ image ∈ images, ∃ old ∈ db.images, old.productId = productId
      ∧ image = { old with position := image.position }) :
  Catalogued { db with
    images := images.foldl Table.put (db.images.filter (·.productId ≠ productId)) }
  := by
  intro image hi
  rcases Table.mem_foldl_put hi with hi | hi
  · obtain ⟨old, hold, _, hmoved⟩ := moved image hi
    obtain ⟨row, hr, hid, hw⟩ := h old hold
    rw [hmoved]
    exact ⟨row, hr, hid, hw⟩
  · exact h image (Table.mem_filter.mp hi).1

/-- Every transaction keeps the images with products of their workspace. -/
theorem Effect.catalogued (h : Effect env s s' work) (catalogued : s.db.Catalogued) :
  s'.db.Catalogued
  := by
  cases h with
  | create _ _ _ _ _ _ _ _ _ _ _ _ _ _ _ _ _ _ _ _ db _ =>
      exact catalogued.same (by rw [db]) (by rw [db])
  | update _ _ _ _ db => exact catalogued.same (by rw [db]) (by rw [db])
  | replaceLogo _ _ _ _ db => exact catalogued.same (by rw [db]) (by rw [db])
  | delete _ _ _ _ _ _ _ _ db => exact catalogued.same (by rw [db]; rfl) (by rw [db]; rfl)
  | addRole _ _ _ _ _ _ _ db => exact catalogued.same (by rw [db]) (by rw [db])
  | renameRole _ _ _ _ _ _ _ _ _ db => exact catalogued.same (by rw [db]) (by rw [db])
  | deleteRole _ _ _ _ _ _ _ _ _ _ _ db => exact catalogued.same (by rw [db]) (by rw [db])
  | setPermissions _ _ _ _ _ _ _ _ _ db => exact catalogued.same (by rw [db]) (by rw [db])
  | setMemberRole _ _ _ _ _ _ _ _ _ _ _ db => exact catalogued.same (by rw [db]) (by rw [db])
  | removeMember _ _ _ _ _ _ _ db => exact catalogued.same (by rw [db]; rfl) (by rw [db]; rfl)
  | transfer _ _ _ _ _ _ _ _ _ _ _ _ _ _ db _ => exact catalogued.same (by rw [db]) (by rw [db])
  | issue _ _ _ _ _ _ _ _ _ _ _ _ _ _ _ _ _ _ _ _ _ _ db =>
      exact catalogued.same (by rw [db]) (by rw [db])
  | revoke _ _ _ _ _ _ _ _ _ db => exact catalogued.same (by rw [db]) (by rw [db])
  | accept joins =>
      obtain ⟨_, _, _, _, _, _, _, _, _, _, _, _, _, _, _, _, _, _, _, _, db⟩ := joins
      exact catalogued.same (by rw [db]) (by rw [db])
  | register _ _ db =>
      obtain ⟨_, hdb, _⟩ := s.db.addUnlessTaken_eq _
      exact catalogued.same (by rw [db, hdb]) (by rw [db, hdb])
  | registerAndJoin _ s₁ db _ _ joins =>
      obtain ⟨_, hdb, _⟩ := s.db.addUnlessTaken_eq _
      obtain ⟨_, _, _, _, _, _, _, _, _, _, _, _, _, _, _, _, _, _, _, _, db'⟩ := joins
      exact catalogued.same (by rw [db', db, hdb]) (by rw [db', db, hdb])
  | ensureAccount _ _ db =>
      obtain ⟨_, hdb, _⟩ := s.db.addUnlessTaken_eq _
      exact catalogued.same (by rw [db, hdb]) (by rw [db, hdb])
  | rename _ _ _ _ db => exact catalogued.same (by rw [db]) (by rw [db])
  | replaceAvatar _ _ _ db => exact catalogued.same (by rw [db]) (by rw [db])
  | deleteAccount _ _ _ _ _ db => exact catalogued.same (by rw [db]) (by rw [db])
  | @deleteBatch workspaceId _ db =>
      refine catalogued.delete
        (fun id => decide (id ∈ s.db.firstProducts env workspaceId PurgeTx.productBatch))
        (fun image hi => ?_) fun row hr hkept => ?_
      · rw [db] at hi
        obtain ⟨hi, hkept⟩ := Table.mem_filter.mp hi
        exact ⟨hi, decide_eq_false (of_decide_eq_true hkept)⟩
      · rw [db]
        exact Table.mem_filter.mpr ⟨hr, decide_eq_true (of_decide_eq_false hkept)⟩
  | purgeNothing _ same => exact same ▸ catalogued
  | purgeRows _ _ _ _ db => exact catalogued.same (by rw [db]; rfl) (by rw [db]; rfl)
  | createProduct row _ fresh _ db =>
      intro image hi
      rw [db] at hi ⊢
      obtain ⟨old, hold, hid, hw⟩ := catalogued image hi
      exact ⟨old, (Table.mem_put_of_get fresh).mpr (Or.inr hold), hid, hw⟩
  | updateProduct row row' stored _ same _ db =>
      intro image hi
      rw [db] at hi ⊢
      obtain ⟨old, hold, hid, hw⟩ := catalogued image hi
      obtain ⟨hrow, _⟩ := Table.get_eq_some_iff.mp stored
      by_cases hk : old.id = row'.id
      · obtain rfl := Table.eq_of_key hold hrow (hk.trans same.1)
        exact ⟨row', Table.mem_put.mpr (Or.inl rfl), same.1.trans hid, same.2.trans hw⟩
      · exact ⟨old, Table.mem_put.mpr (Or.inr ⟨hold, hk⟩), hid, hw⟩
  | @deleteProduct workspaceId productId row _ _ _ db =>
      refine catalogued.delete (fun id => decide (id = productId)) (fun image hi => ?_)
        fun row hr hkept => ?_
      · rw [db] at hi
        obtain ⟨hi, hkept⟩ := Table.mem_filter.mp hi
        exact ⟨hi, decide_eq_false (of_decide_eq_true hkept)⟩
      · rw [db]
        exact Table.mem_erase.mpr ⟨hr, of_decide_eq_false hkept⟩
  | attachImage row image stored own of_product of_workspace _ _ db =>
      intro other hother
      rw [db] at hother ⊢
      rcases Table.mem_put.mp hother with rfl | ⟨hother, _⟩
      · obtain ⟨hrow, hid⟩ := Table.get_eq_some_iff.mp stored
        exact ⟨row, hrow, hid.trans of_product.symm, own.trans of_workspace.symm⟩
      · exact catalogued other hother
  | removeImage _ _ _ _ moved _ db =>
      rw [db]
      exact catalogued.move moved
  | reorderImages _ _ _ _ moved _ db =>
      rw [db]
      exact catalogued.move moved

theorem Reachable.catalogued {ok : Work → Prop} (h : Reachable env ok s) :
  s.db.Catalogued
  := h.invariant (by simp [Db.Catalogued, Db.empty])
    fun _ catalogued _ effect _ => effect.catalogued catalogued

end Catalogued

/-! ### Transactions on one workspace -/

/-- The workspace that a transaction is on, where it is on one. -/
def Work.scope : Work → Option String
  | .update workspaceId _ _ _ => some workspaceId
  | .replaceLogo workspaceId _ _ _ => some workspaceId
  | .delete workspaceId _ => some workspaceId
  | .saveRole workspaceId _ _ _ => some workspaceId
  | .deleteRole workspaceId _ _ => some workspaceId
  | .setPermissions workspaceId _ _ _ => some workspaceId
  | .setMemberRole workspaceId _ _ _ => some workspaceId
  | .removeMember workspaceId _ _ => some workspaceId
  | .transfer workspaceId _ _ => some workspaceId
  | .issue workspaceId _ _ _ => some workspaceId
  | .revoke workspaceId _ _ => some workspaceId
  | .createProduct _ workspaceId _ _ _ _ _ => some workspaceId
  | .updateProduct workspaceId _ _ _ => some workspaceId
  | .deleteProduct workspaceId _ => some workspaceId
  | .attachImage _ workspaceId _ _ _ => some workspaceId
  | .removeImage workspaceId _ _ => some workspaceId
  | .reorderImages workspaceId _ _ => some workspaceId
  | _ => none

/-- The rows of other workspaces are the same, and of the accounts only the onboarding status
of members has changed. -/
structure Isolated (w : String) (db db' : Db) : Prop where
  rows : Agree w db db'
  users : ∀ id, db'.users.get id ≠ db.users.get id → (db.member w id).isSome
    ∧ ∃ user status, db.users.get id = some user
      ∧ db'.users.get id = some { user with onboardingStatus := status }

section Isolated

variable {env : Env} {s s' : Session} {work : Work} {w : String} {db : Db}

theorem Isolated.refl (w : String) (db : Db) :
  Isolated w db db
  := ⟨.refl w db, fun _ h => absurd rfl h⟩

theorem Agree.isolated {db' : Db} (h : Agree w db db') (users : db'.users = db.users) :
  Isolated w db db'
  := ⟨h, fun id hid => absurd (by rw [users]) hid⟩

/-- Sending members back to the workspace step changes their status. -/
theorem Agree.returned {db' : Db} (h : Agree w db db') (users : db'.users = db.users)
    {userIds : List String} (members : ∀ id ∈ userIds, (db.member w id).isSome) :
  Isolated w db (db'.returned userIds)
  where
  rows := ⟨h.workspaces, h.roles, h.permissions, h.members, h.invitations, h.products, h.images⟩
  users id hid := by
    have hget : (db'.returned userIds).users.get id
        = (db.users.get id).map (·.returned db'.belongsToAny userIds) := by
      rw [← users]
      rfl
    rw [hget] at hid ⊢
    cases hu : db.users.get id with
    | none =>
        rw [hu] at hid
        exact absurd rfl hid
    | some user =>
        obtain ⟨_, huid⟩ := Table.get_eq_some_iff.mp hu
        rw [hu, Option.map_some, User.returned] at hid
        rw [Option.map_some, User.returned]
        split at hid
        · next hback =>
            rw [if_pos hback]
            exact ⟨members id (huid ▸ hback.1), user, _, rfl, rfl⟩
        · exact absurd rfl hid

/-- The row of the workspace is replaced. -/
theorem same_put_workspace {workspace : Workspace} (live : db.live w = some workspace)
    (workspace' : Workspace) (id : workspace'.id = workspace.id) :
  Table.Same (·.id ≠ w) db.workspaces (db.workspaces.put workspace')
  := by
  obtain ⟨_, hid, _⟩ := Db.live_eq_some.mp live
  have hid' := id.trans hid
  exact .put (not_not.mpr hid') fun old _ hk => not_not.mpr (hk.trans hid')

/-- A membership in the workspace is written. -/
theorem same_put_member {members : Table Member.key} (member : Member)
    (own : member.workspaceId = w) :
  Table.Same (·.workspaceId ≠ w) members (members.put member)
  := .put (not_not.mpr own) fun _ _ hk => not_not.mpr ((pair_inj.mp hk).1.trans own)

/-- The images of a product of the workspace are of the workspace. -/
theorem Db.Catalogued.own (h : db.Catalogued) {row : ProductRow} {productId : String}
    (stored : db.products.get productId = some row) {image : ProductImage}
    (hi : image ∈ db.images) (of_product : image.productId = productId) :
  image.workspaceId = row.workspaceId
  := by
  obtain ⟨hrow, hid⟩ := Table.get_eq_some_iff.mp stored
  obtain ⟨row', hrow', hid', hw⟩ := h image hi
  obtain rfl := Table.eq_of_key hrow' hrow (hid'.trans (of_product.trans hid.symm))
  exact hw.symm

/-- The images of a product of the workspace are written again with other positions. -/
theorem Agree.move (catalogued : db.Catalogued) {row : ProductRow} {productId : String}
    (stored : db.products.get productId = some row) (own : row.workspaceId = w)
    {images : List ProductImage}
    (moved : ∀ image ∈ images, ∃ old ∈ db.images, old.productId = productId
      ∧ image = { old with position := image.position }) :
  Agree w db { db with
    images := images.foldl Table.put (db.images.filter (·.productId ≠ productId)) }
  := by
  have kept : Table.Same (·.workspaceId ≠ w) db.images
      (db.images.filter (·.productId ≠ productId)) := by
    refine .filter fun image hi hw => decide_eq_true fun hp => hw ?_
    exact (catalogued.own stored hi hp).trans own
  refine { Agree.refl w db with images := kept.trans (.foldl_put (fun image hi => ?_) ?_) }
  · obtain ⟨old, hold, hp, hmoved⟩ := moved image hi
    rw [hmoved]
    exact not_not.mpr ((catalogued.own stored hold hp).trans own)
  · intro image hi other hother hk
    obtain ⟨old, hold, hp, hmoved⟩ := moved image hi
    rw [hmoved] at hk
    obtain rfl := Table.eq_of_key (Table.mem_filter.mp hother).1 hold hk
    exact not_not.mpr ((catalogued.own stored hold hp).trans own)

/-- A transaction on a workspace leaves the others alone. -/
theorem Effect.isolated (h : Effect env s s' work) (on : work.scope = some w)
    (refs : s.db.References) (catalogued : s.db.Catalogued) :
  Isolated w s.db s'.db
  := by
  cases h with
  | @update _ name slug _ workspace live _ _ db =>
      cases on
      rw [db]
      exact Agree.isolated { Agree.refl w s.db with
        workspaces := same_put_workspace live (workspace.rename name slug) rfl } rfl
  | @replaceLogo _ _ key url workspace live _ _ db =>
      cases on
      rw [db]
      exact Agree.isolated { Agree.refl w s.db with
        workspaces := same_put_workspace live (workspace.replaceLogo key url) rfl } rfl
  | delete workspace now newId memberIds live _ memberIds_iff _ db =>
      cases on
      rw [db]
      have hinvitations : Table.Same (·.workspaceId ≠ w) s.db.invitations
          (s.db.invitations.map (·.revokePending w) (Invitation.revokePending_id w)) := by
        refine .map fun invitation _ => ?_
        rw [Invitation.revokePending]
        split
        · next hrevoked => exact Or.inr ⟨not_not.mpr hrevoked.1, not_not.mpr hrevoked.1⟩
        · exact Or.inl rfl
      refine Agree.returned ?_ ?_ fun id hid => (memberIds_iff id).mp hid
      · exact { Agree.refl w s.db with
          workspaces := same_put_workspace live (workspace.softDelete now newId) rfl
          members := .filter fun member _ hw => decide_eq_true hw
          invitations := hinvitations }
      · rfl
  | addRole workspace roleId live _ _ fresh _ db =>
      cases on
      rw [db]
      refine Agree.isolated { Agree.refl w s.db with
        roles := .put (not_not.mpr rfl) fun old hold hk => ?_ } rfl
      exact absurd hk (Table.get_eq_none_iff.mp fresh old hold)
  | renameRole workspace role live _ _ stored own _ _ db =>
      cases on
      rw [db]
      obtain ⟨hrole, _⟩ := Table.get_eq_some_iff.mp stored
      refine Agree.isolated { Agree.refl w s.db with
        roles := .put (not_not.mpr own) fun old hold hk => ?_ } rfl
      rw [Table.eq_of_key hold hrole hk]
      exact not_not.mpr own
  | deleteRole workspace role now live _ stored own _ _ _ _ db =>
      cases on
      rw [db]
      obtain ⟨hrole, hid⟩ := Table.get_eq_some_iff.mp stored
      refine Agree.isolated { Agree.refl w s.db with
        roles := .erase fun old hold hk => ?_
        permissions := fun other hother hw => .filter fun row _ hrow => ?_
        invitations := .filter fun invitation hi hw => ?_ } rfl
      · rw [Table.eq_of_key hold hrole (hk.trans hid.symm)]
        exact not_not.mpr own
      · rw [hrow]
        refine decide_eq_true fun hk => hw ?_
        rw [Table.eq_of_key hother hrole (hk.trans hid.symm)]
        exact own
      · -- An invitation with the role is to the workspace of the role.
        refine decide_eq_true fun hk => hw ?_
        obtain ⟨role', hrole', hid', hw', _⟩ := (refs.invitation invitation hi).role
        rw [← hw', Table.eq_of_key hrole' hrole (hid'.trans (hk.trans hid.symm))]
        exact own
  | @setPermissions _ roleId _ permissions workspace role live _ stored own _ _ _ db =>
      cases on
      rw [db]
      obtain ⟨hrole, hid⟩ := Table.get_eq_some_iff.mp stored
      refine Agree.isolated { Agree.refl w s.db with
        permissions := fun other hother hw row hrow => ?_ } rfl
      have hne : other.id ≠ roleId := by
        intro hk
        rw [Table.eq_of_key hother hrole (hk.trans hid.symm)] at hw
        exact hw own
      simp [hrow, hne]
  | @setMemberRole _ _ roleId _ workspace role member live _ _ _ _ _ belongs _ db =>
      cases on
      rw [db]
      have hw := (pair_inj.mp (Table.get_eq_some_iff.mp belongs).2).1
      exact Agree.isolated { Agree.refl w s.db with
        members := same_put_member { member with roleId := roleId } hw } rfl
  | removeMember workspace member live _ _ belongs _ db =>
      cases on
      rw [db]
      refine Agree.returned ?_ ?_ fun id hid => ?_
      · exact { Agree.refl w s.db with
          members := .erase fun old _ hk => not_not.mpr (pair_inj.mp hk).1 }
      · rfl
      · rw [List.mem_singleton.mp hid]
        exact Option.isSome_of_mem belongs
  | @transfer _ targetId _ workspace target previous admin roles' rolePermissions' live _ _ belongs
      belongs' admin_shape admin_mem _ db _ =>
      cases on
      rw [db]
      obtain ⟨hw, hroles, hpermissions⟩ : admin.workspaceId = w
          ∧ Table.Same (·.workspaceId ≠ w) s.db.roles roles'
          ∧ ∀ role ∈ s.db.roles, role.workspaceId ≠ w →
            Table.Same (·.roleId = role.id) s.db.rolePermissions rolePermissions' := by
        refine ⟨admin_shape.1, ?_⟩
        rcases admin_mem with ⟨_, rfl, rfl⟩ | ⟨fresh, _, rfl, rfl⟩
        · exact ⟨.refl _ _, fun _ _ _ => .refl _ _⟩
        · refine ⟨.put (not_not.mpr admin_shape.1) fun old hold hk => ?_, fun role hr _ row hrow => ?_⟩
          · exact absurd hk (Table.get_eq_none_iff.mp fresh old hold)
          · have hne := Table.get_eq_none_iff.mp fresh role hr
            simp [hrow, hne]
      have htarget := (pair_inj.mp (Table.get_eq_some_iff.mp belongs).2).1
      have hprevious := (pair_inj.mp (Table.get_eq_some_iff.mp belongs').2).1
      exact Agree.isolated { Agree.refl w s.db with
        workspaces := same_put_workspace live { workspace with ownerId := targetId } rfl
        roles := hroles
        permissions := hpermissions
        members := (same_put_member { target with roleId := previous.roleId } htarget).trans
          (same_put_member { previous with roleId := admin.id } hprevious) } rfl
  | issue workspace role invitation _ _ _ _ live _ _ _ _ _ _ _ _ _ _ _ shape fresh _ db =>
      cases on
      rw [db]
      refine Agree.isolated { Agree.refl w s.db with
        invitations := .put (not_not.mpr (by rw [shape]; rfl)) fun old hold hk => ?_ } rfl
      exact absurd hk (Table.get_eq_none_iff.mp fresh old hold)
  | revoke workspace invitation _ live _ stored own _ _ db =>
      cases on
      rw [db]
      obtain ⟨hinvitation, _⟩ := Table.get_eq_some_iff.mp stored
      refine Agree.isolated { Agree.refl w s.db with
        invitations := .put (not_not.mpr own) fun old hold hk => ?_ } rfl
      rw [Table.eq_of_key hold hinvitation hk]
      exact not_not.mpr own
  | createProduct row own fresh _ db =>
      cases on
      rw [db]
      refine Agree.isolated { Agree.refl w s.db with
        products := .put (not_not.mpr own) fun old hold hk => ?_ } rfl
      exact absurd hk (Table.get_eq_none_iff.mp fresh old hold)
  | updateProduct row row' stored own same _ db =>
      cases on
      rw [db]
      obtain ⟨hrow, _⟩ := Table.get_eq_some_iff.mp stored
      refine Agree.isolated { Agree.refl w s.db with
        products := .put (not_not.mpr (same.2.trans own)) fun old hold hk => ?_ } rfl
      rw [Table.eq_of_key hold hrow (hk.trans same.1)]
      exact not_not.mpr own
  | deleteProduct row stored own _ db =>
      cases on
      rw [db]
      obtain ⟨hrow, hid⟩ := Table.get_eq_some_iff.mp stored
      refine Agree.isolated { Agree.refl w s.db with
        products := .erase fun old hold hk => ?_
        images := .filter fun image hi hw => decide_eq_true fun hp => hw ?_ } rfl
      · rw [Table.eq_of_key hold hrow (hk.trans hid.symm)]
        exact not_not.mpr own
      · exact (catalogued.own stored hi hp).trans own
  | attachImage row image stored own of_product of_workspace fresh _ db =>
      cases on
      rw [db]
      refine Agree.isolated { Agree.refl w s.db with
        images := .put (not_not.mpr of_workspace) fun old hold hk => ?_ } rfl
      exact absurd hk (Table.get_eq_none_iff.mp fresh old hold)
  | removeImage row images stored own moved _ db =>
      cases on
      rw [db]
      exact (Agree.move catalogued stored own moved).isolated rfl
  | reorderImages row images stored own moved _ db =>
      cases on
      rw [db]
      exact (Agree.move catalogued stored own moved).isolated rfl
  | _ => cases on

end Isolated

end MvpApi
