import MvpApi.Application.Workspaces

/-!
# The transactions on accounts

The bodies of the transactions of registration and of the signed-in person's own profile,
and of the purge of deleted workspaces, which the deletion of an account runs first.
-/

set_option autoImplicit false

namespace MvpApi

open Tx

/-- A profile, and whether it belongs to a workspace. -/
structure ProfileView where
  user : User
  joinedWorkspace : Bool
deriving DecidableEq, Repr

namespace AccountTx

/-- Create the profile row of a new account, and join with an invitation when there is a
token; an invitation that cannot be accepted is ignored. -/
def register (sub email displayName : String) (invitationToken : Option String) : Tx Unit := do
  let env ← platform
  Users.addUnlessTaken (User.new env.lower sub email displayName (← now))
  flush
  match invitationToken.filter (· ≠ "") with
  | none => pure ()
  | some token =>
      swallowDomainErrors do
        let _ ← joinWithInvitation token sub
        pure ()

/-- Create the row of an account on its first request, without a name. -/
def ensureAccount (sub email : String) : Tx Unit := do
  let env ← platform
  Users.addUnlessTaken (User.new env.lower sub email "" (← now))

def view (user : User) : Tx ProfileView := do
  return ⟨user, ← Members.belongsToAny user.id⟩

def profile (userId : String) : Tx ProfileView := do
  require userId "profile.read" userId
  let user ← check (existing (← Users.get userId))
  view user

def rename (userId displayName : String) : Tx User := do
  require userId "profile.update" userId
  let user ← check (existing (← Users.get userId))
  let user := user.rename displayName (← Members.belongsToAny userId)
  Users.save user
  return user

/-- Set the avatar; the result also has the key of the avatar it replaces. -/
def replaceAvatar (userId : String) (key url : Option String) : Tx (User × Option String) := do
  let user ← check (existing (← Users.get userId))
  Users.save (user.replaceAvatar key url)
  return (user.replaceAvatar key url, user.avatarKey)

def ensureDeletable (userId : String) : Tx Unit := do
  require userId "profile.delete" userId
  let owns ← Workspaces.anyOwnedBy userId
  refuseUnless (owns = false)
    (.conflict "Transfer ownership or delete your workspaces before deleting your account")

def delete (userId : String) : Tx User := do
  ensureDeletable userId
  let user ← check (existing (← Users.get userId))
  Members.removeUser userId
  Invitations.deleteSentBy userId
  Users.delete user
  return user

end AccountTx

/-- The ids of the products of a workspace that the database comes across first. -/
def Db.firstProducts (db : Db) (env : Env) (workspaceId : String) (limit : ℕ) : List String :=
  let ids := (db.products.rows.filter (·.workspaceId = workspaceId)).map ProductRow.id
  (orderBy (env.place ids) ids).take limit

/-- The products of a batch are products of the workspace. -/
theorem Db.mem_firstProducts {db : Db} {env : Env} {workspaceId id : String} {limit : ℕ}
    (h : id ∈ db.firstProducts env workspaceId limit) :
  ∃ row ∈ db.products, row.id = id ∧ row.workspaceId = workspaceId
  := by
  obtain ⟨row, hrow, hid⟩ := List.mem_map.mp (mem_orderBy.mp (List.mem_of_mem_take h))
  have hmem := List.mem_filter.mp hrow
  exact ⟨row, Table.mem_rows.mp hmem.1, hid, of_decide_eq_true hmem.2⟩

/-- The rows without some products and their images. -/
def Db.deleteProducts (db : Db) (ids : List String) : Db :=
  { db with
    images := db.images.filter (·.productId ∉ ids)
    products := db.products.filter (·.id ∉ ids) }

namespace PurgeTx

def productBatch : ℕ := 200

/-- Delete some products of a workspace with their images; the result has their number and
the storage keys of the images. -/
def deleteBatch (workspaceId : String) (limit : ℕ) : Tx (ℕ × List String) := do
  let env ← platform
  let ids ← select fun db => db.firstProducts env workspaceId limit
  let keys ← select fun db =>
    (db.images.rows.filter (·.productId ∈ ids)).flatMap ProductImage.storageKeys
  write (·.deleteProducts ids)
  return (ids.length, keys)

/-- Delete the row of a soft-deleted workspace and the rows that belong to it. -/
def purgeRows (workspaceId : String) : Tx (Option String) := do
  match ← Workspaces.getDeleted workspaceId with
  | none => return none
  | some workspace =>
      Workspaces.purge workspace
      return workspace.logoKey

end PurgeTx

end MvpApi
