import MvpApi.Library.Table
import MvpApi.Domain.Workspace
import MvpApi.Domain.Product
import Mathlib.Data.Prod.Lex
import Mathlib.Data.Set.Basic

/-!
# The tables

The state of the database: eight tables, each with its primary key, and the unique
constraints of the migration, which are all that the database enforces besides the
primary keys. There are no foreign keys.

A row is named by a `RowId`; `changed before after` is the set of the rows that two states
of the database differ in, and `merge base final current` replays on `current` the rows in
which `final` differs from `base`.
-/

set_option autoImplicit false

namespace MvpApi

/-- A key made of two texts, ordered by the first and then by the second. -/
abbrev Pair := String ×ₗ String

/-- The key of two texts. -/
def pair (a b : String) : Pair := toLex (a, b)

@[simp]
theorem pair_inj {a b a' b' : String} :
  pair a b = pair a' b' ↔ a = a' ∧ b = b'
  := by
  rw [pair, pair, toLex_inj, Prod.mk.injEq]

/-- A permission of a role. -/
structure RolePermission where
  roleId : String
  permission : String
deriving DecidableEq, Repr

def Member.key (member : Member) : Pair := pair member.workspaceId member.userId
def RolePermission.key (row : RolePermission) : Pair := pair row.roleId row.permission

/-- The rows of the database. -/
structure Db where
  users : Table User.id
  workspaces : Table Workspace.id
  roles : Table Role.id
  rolePermissions : Table RolePermission.key
  members : Table Member.key
  invitations : Table Invitation.id
  products : Table ProductRow.id
  images : Table ProductImage.id

namespace Db

/-- The database before the first request. -/
def empty : Db where
  users := .empty
  workspaces := .empty
  roles := .empty
  rolePermissions := .empty
  members := .empty
  invitations := .empty
  products := .empty
  images := .empty

/-- Databases with the same rows are equal. -/
@[ext]
theorem ext {db db' : Db} (users : db.users = db'.users)
    (workspaces : db.workspaces = db'.workspaces) (roles : db.roles = db'.roles)
    (rolePermissions : db.rolePermissions = db'.rolePermissions)
    (members : db.members = db'.members) (invitations : db.invitations = db'.invitations)
    (products : db.products = db'.products) (images : db.images = db'.images) :
  db = db'
  := by
  cases db
  cases db'
  simp_all

/-- The unique constraints of the migration. -/
structure Unique (db : Db) : Prop where
  email : ∀ user ∈ db.users, ∀ user' ∈ db.users, user.email = user'.email → user.id = user'.id
  slug : ∀ ws ∈ db.workspaces, ∀ ws' ∈ db.workspaces, ws.slug = ws'.slug → ws.id = ws'.id
  roleName : ∀ role ∈ db.roles, ∀ role' ∈ db.roles,
    role.workspaceId = role'.workspaceId ∧ role.name = role'.name → role.id = role'.id
  tokenHash : ∀ inv ∈ db.invitations, ∀ inv' ∈ db.invitations,
    inv.tokenHash = inv'.tokenHash → inv.id = inv'.id
  uploadKey : ∀ image ∈ db.images, ∀ image' ∈ db.images,
    image.uploadKey ≠ none ∧ image.productId = image'.productId
      ∧ image.uploadKey = image'.uploadKey → image.id = image'.id

instance (db : Db) : Decidable db.Unique :=
  decidable_of_iff
    ((∀ user ∈ db.users, ∀ user' ∈ db.users, user.email = user'.email → user.id = user'.id)
      ∧ (∀ ws ∈ db.workspaces, ∀ ws' ∈ db.workspaces, ws.slug = ws'.slug → ws.id = ws'.id)
      ∧ (∀ role ∈ db.roles, ∀ role' ∈ db.roles,
          role.workspaceId = role'.workspaceId ∧ role.name = role'.name → role.id = role'.id)
      ∧ (∀ inv ∈ db.invitations, ∀ inv' ∈ db.invitations,
          inv.tokenHash = inv'.tokenHash → inv.id = inv'.id)
      ∧ ∀ image ∈ db.images, ∀ image' ∈ db.images,
          image.uploadKey ≠ none ∧ image.productId = image'.productId
            ∧ image.uploadKey = image'.uploadKey → image.id = image'.id)
    ⟨fun ⟨h₁, h₂, h₃, h₄, h₅⟩ => ⟨h₁, h₂, h₃, h₄, h₅⟩,
      fun ⟨h₁, h₂, h₃, h₄, h₅⟩ => ⟨h₁, h₂, h₃, h₄, h₅⟩⟩

/-- The unique constraints hold of accounts and invitations that were written again with the
email and the token they had. -/
theorem Unique.rewrite {db : Db} (h : db.Unique) {users' : Table User.id}
    {members' : Table Member.key} {invitations' : Table Invitation.id}
    (users : ∀ user ∈ users', ∃ old ∈ db.users, old.id = user.id ∧ old.email = user.email)
    (invitations : ∀ invitation ∈ invitations', ∃ old ∈ db.invitations,
      old.id = invitation.id ∧ old.tokenHash = invitation.tokenHash) :
  Unique { db with users := users', members := members', invitations := invitations' }
  where
  email user hu user' hu' hemail := by
    obtain ⟨old, hold, hid, he⟩ := users user hu
    obtain ⟨old', hold', hid', he'⟩ := users user' hu'
    rw [← hid, ← hid']
    exact h.email old hold old' hold' (by rw [he, he', hemail])
  slug := h.slug
  roleName := h.roleName
  tokenHash invitation hi invitation' hi' hhash := by
    obtain ⟨old, hold, hid, hh⟩ := invitations invitation hi
    obtain ⟨old', hold', hid', hh'⟩ := invitations invitation' hi'
    rw [← hid, ← hid']
    exact h.tokenHash old hold old' hold' (by rw [hh, hh', hhash])
  uploadKey := h.uploadKey

/-- The unique constraints hold of fewer rows. -/
theorem Unique.mono {db db' : Db} (h : db.Unique) (users : ∀ row ∈ db'.users, row ∈ db.users)
    (workspaces : ∀ row ∈ db'.workspaces, row ∈ db.workspaces)
    (roles : ∀ row ∈ db'.roles, row ∈ db.roles)
    (invitations : ∀ row ∈ db'.invitations, row ∈ db.invitations)
    (images : ∀ row ∈ db'.images, row ∈ db.images) :
  db'.Unique
  where
  email row hr row' hr' := h.email row (users row hr) row' (users row' hr')
  slug row hr row' hr' := h.slug row (workspaces row hr) row' (workspaces row' hr')
  roleName row hr row' hr' := h.roleName row (roles row hr) row' (roles row' hr')
  tokenHash row hr row' hr' := h.tokenHash row (invitations row hr) row' (invitations row' hr')
  uploadKey row hr row' hr' := h.uploadKey row (images row hr) row' (images row' hr')

theorem empty_unique :
  empty.Unique
  := ⟨by simp [empty], by simp [empty], by simp [empty], by simp [empty], by simp [empty]⟩

end Db

/-! ### Rows -/

/-- The name of a row. -/
inductive RowId where
  | user (id : String)
  | workspace (id : String)
  | role (id : String)
  | permission (roleId permission : String)
  | member (workspaceId userId : String)
  | invitation (id : String)
  | product (id : String)
  | image (id : String)
deriving DecidableEq, Repr

namespace Db

/-- The rows in which two states of the database differ. -/
def changed (before after : Db) : Set RowId := fun
  | .user id => after.users.get id ≠ before.users.get id
  | .workspace id => after.workspaces.get id ≠ before.workspaces.get id
  | .role id => after.roles.get id ≠ before.roles.get id
  | .permission roleId permission =>
      after.rolePermissions.get (pair roleId permission)
        ≠ before.rolePermissions.get (pair roleId permission)
  | .member workspaceId userId =>
      after.members.get (pair workspaceId userId) ≠ before.members.get (pair workspaceId userId)
  | .invitation id => after.invitations.get id ≠ before.invitations.get id
  | .product id => after.products.get id ≠ before.products.get id
  | .image id => after.images.get id ≠ before.images.get id

/-- The database `current`, with the rows in which `final` differs from `base` replaced by
those of `final`. -/
def merge (base final current : Db) : Db where
  users := .merge base.users final.users current.users
  workspaces := .merge base.workspaces final.workspaces current.workspaces
  roles := .merge base.roles final.roles current.roles
  rolePermissions :=
    .merge base.rolePermissions final.rolePermissions current.rolePermissions
  members := .merge base.members final.members current.members
  invitations := .merge base.invitations final.invitations current.invitations
  products := .merge base.products final.products current.products
  images := .merge base.images final.images current.images

@[simp]
theorem merge_base (base final : Db) :
  merge base final base = final
  := by
  simp [merge]

/-- The rows that differ on the way differ in one part of it. -/
theorem changed_trans {db db' db'' : Db} {row : RowId} (h : row ∈ db.changed db'') :
  row ∈ db.changed db' ∨ row ∈ db'.changed db''
  := by
  by_contra hnot
  obtain ⟨h₁, h₂⟩ := not_or.mp hnot
  cases row with
  | _ => exact h ((not_not.mp h₂).trans (not_not.mp h₁))

/-- Merging changes the rows that were changed. -/
theorem changed_merge {base final current : Db} {row : RowId}
    (h : row ∈ current.changed (merge base final current)) :
  row ∈ base.changed final
  := by
  cases row with
  | _ =>
      intro heq
      exact h (if_pos heq)

end Db

end MvpApi
