import MvpApi.Database.Session

/-!
# The repositories

The queries and statements of the repositories on accounts, workspaces, roles, members and
invitations. A query reads the rows of the session in the order of their keys where it
asks for no order. A function `save`, for which the source has no statement, writes an
entity whose fields changed.
-/

set_option autoImplicit false

namespace MvpApi

open Tx

/-- The elements of a list, in the order of a value of theirs. -/
def orderBy {α β : Type} [LinearOrder β] (f : α → β) (l : List α) : List α :=
  l.insertionSort (fun a b => f a ≤ f b)

theorem mem_orderBy {α β : Type} [LinearOrder β] {f : α → β} {l : List α} {a : α} :
  a ∈ orderBy f l ↔ a ∈ l
  := (List.perm_insertionSort _ l).mem_iff

/-- The order of the database on texts that are compared one after the other. -/
def textsLt (env : Env) : List String → List String → Bool
  | a :: as, b :: bs => env.textLt a b || (a = b && textsLt env as bs)
  | _, _ => false

/-- The elements of a list, in the order of texts of theirs. Elements with the same texts stay in
the order of the list. -/
def orderByTexts {α : Type} (env : Env) (f : α → List String) (l : List α) : List α :=
  l.insertionSort fun a b => textsLt env (f b) (f a) = false

theorem perm_orderByTexts {α : Type} {env : Env} {f : α → List String} {l : List α} :
  (orderByTexts env f l).Perm l
  := List.perm_insertionSort _ l

/-! ### Accounts -/

/-- The rows with a new account, unless its id or its email is taken. -/
def Db.addUnlessTaken (db : Db) (user : User) : Db :=
  if (db.users.get user.id).isSome || db.users.any (·.email = user.email) then db
  else { db with users := db.users.put user }

section AddUnlessTaken

variable (db : Db) (user : User)

/-- An account is added to the accounts only. -/
theorem Db.addUnlessTaken_eq :
  ∃ users, db.addUnlessTaken user = { db with users := users }
    ∧ (users = db.users ∨ (db.users.get user.id = none
      ∧ (∀ other ∈ db.users, other.email ≠ user.email) ∧ users = db.users.put user))
  := by
  unfold Db.addUnlessTaken
  split
  · exact ⟨db.users, rfl, Or.inl rfl⟩
  · next h =>
      rw [Bool.not_eq_true, Bool.or_eq_false_iff, Table.any_eq_false] at h
      refine ⟨_, rfl, Or.inr ⟨?_, ?_, rfl⟩⟩
      · exact Option.isNone_iff_eq_none.mp (Option.isSome_eq_false_iff.mp h.1)
      · intro other hother
        simpa using h.2 other hother

@[simp]
theorem Db.addUnlessTaken_workspaces :
  (db.addUnlessTaken user).workspaces = db.workspaces
  := by
  obtain ⟨_, h, _⟩ := db.addUnlessTaken_eq user
  rw [h]

@[simp]
theorem Db.addUnlessTaken_roles :
  (db.addUnlessTaken user).roles = db.roles
  := by
  obtain ⟨_, h, _⟩ := db.addUnlessTaken_eq user
  rw [h]

@[simp]
theorem Db.addUnlessTaken_invitations :
  (db.addUnlessTaken user).invitations = db.invitations
  := by
  obtain ⟨_, h, _⟩ := db.addUnlessTaken_eq user
  rw [h]

@[simp]
theorem Db.addUnlessTaken_members :
  (db.addUnlessTaken user).members = db.members
  := by
  obtain ⟨_, h, _⟩ := db.addUnlessTaken_eq user
  rw [h]

end AddUnlessTaken

namespace Users

def get (userId : String) : Tx (Option User) :=
  select fun db => db.users.get userId

/-- Insert unless the id or the email already exists. -/
def addUnlessTaken (user : User) : Tx Unit :=
  write (·.addUnlessTaken user)

def save (user : User) : Tx Unit :=
  write fun db => { db with users := db.users.put user }

def delete (user : User) : Tx Unit :=
  write fun db => { db with users := db.users.erase user.id }

end Users

/-! ### Workspaces -/

/-- The live workspace of an id. -/
def Db.live (db : Db) (workspaceId : String) : Option Workspace :=
  (db.workspaces.get workspaceId).filter fun ws => !ws.isDeleted

theorem Db.live_eq_some {db : Db} {workspaceId : String} {workspace : Workspace} :
  db.live workspaceId = some workspace
    ↔ workspace ∈ db.workspaces ∧ workspace.id = workspaceId ∧ workspace.deletedAt = none
  := by
  rw [Db.live, Option.filter_eq_some_iff, Table.get_eq_some_iff, and_assoc]
  simp [Workspace.isDeleted]

/-- The rows without the row of a workspace and its members, roles and invitations. -/
def Db.purge (db : Db) (workspace : Workspace) : Db :=
  { db with
    rolePermissions := db.rolePermissions.filter fun row =>
      !(db.roles.get row.roleId).any (·.workspaceId = workspace.id)
    roles := db.roles.filter (·.workspaceId ≠ workspace.id)
    members := db.members.filter (·.workspaceId ≠ workspace.id)
    invitations := db.invitations.filter (·.workspaceId ≠ workspace.id)
    workspaces := db.workspaces.erase workspace.id }

namespace Workspaces

/-- A live workspace. -/
def get (workspaceId : String) : Tx (Option Workspace) :=
  select fun db => db.live workspaceId

def getDeleted (workspaceId : String) : Tx (Option Workspace) :=
  select fun db => (db.workspaces.get workspaceId).filter (·.isDeleted)

def bySlug (slug : String) : Tx (Option Workspace) :=
  select fun db => db.workspaces.find? fun ws => ws.slug = slug && !ws.isDeleted

/-- A live workspace, locked until the transaction ends. -/
def lock (workspaceId : String) : Tx (Option Workspace) := do
  let workspace ← get workspaceId
  touch (if workspace.isSome then [.workspace workspaceId] else [])
  return workspace

/-- The live workspaces that an account belongs to, by name. -/
def ofMember (userId : String) : Tx (List Workspace) := do
  let env ← platform
  select fun db => orderByTexts env (fun ws => [ws.name]) <| db.workspaces.rows.filter fun ws =>
    (db.members.get (pair ws.id userId)).isSome && !ws.isDeleted

def slugExists (slug : String) : Tx Bool :=
  select fun db => db.workspaces.any (·.slug = slug)

def anyOwnedBy (userId : String) : Tx Bool :=
  select fun db => db.workspaces.any fun ws => ws.ownerId = userId && !ws.isDeleted

/-- The soft-deleted workspaces, or those of one owner. -/
def deletedIds (ownedBy : Option String) : Tx (List String) :=
  select fun db => (orderBy (fun ws => ws.deletedAt.getD 0) <| db.workspaces.rows.filter fun ws =>
    ws.isDeleted && ownedBy.all (· = ws.ownerId)).map Workspace.id

def add (workspace : Workspace) : Tx Unit := do
  let taken ← select fun db => (db.workspaces.get workspace.id).isSome
  .ensure (taken = false) .duplicate
  write fun db => { db with workspaces := db.workspaces.put workspace }

def save (workspace : Workspace) : Tx Unit :=
  write fun db => { db with workspaces := db.workspaces.put workspace }

/-- Delete the workspace row with its members, roles and invitations. -/
def purge (workspace : Workspace) : Tx Unit :=
  write (·.purge workspace)

end Workspaces

/-! ### Roles -/

/-- The permissions of a role. -/
def Db.permissions (db : Db) (roleId : String) : List String :=
  orderBy id ((db.rolePermissions.rows.filter (·.roleId = roleId)).map RolePermission.permission)

theorem Db.mem_permissions {db : Db} {roleId permission : String} :
  permission ∈ db.permissions roleId ↔ ⟨roleId, permission⟩ ∈ db.rolePermissions
  := by
  rw [Db.permissions, mem_orderBy, List.mem_map]
  constructor
  · rintro ⟨row, hrow, rfl⟩
    obtain ⟨hrow, hid⟩ := List.mem_filter.mp hrow
    rw [← of_decide_eq_true hid]
    exact Table.mem_rows.mp hrow
  · intro h
    exact ⟨_, List.mem_filter.mpr ⟨Table.mem_rows.mpr h, decide_eq_true rfl⟩, rfl⟩

namespace Roles

def get (roleId : String) : Tx (Option Role) :=
  select fun db => db.roles.get roleId

def byName (workspaceId name : String) : Tx (Option Role) :=
  select fun db => db.roles.find? fun role => role.workspaceId = workspaceId && role.name = name

/-- The roles of a workspace, the owner role first, then by name. -/
def ofWorkspace (workspaceId : String) : Tx (List Role) := do
  let env ← platform
  select fun db => orderBy (fun role => if role.name = ownerRole then 0 else 1) <|
    orderByTexts env (fun role => [role.name]) <|
      db.roles.rows.filter (·.workspaceId = workspaceId)

def permissions (roleId : String) : Tx (List String) :=
  select fun db => db.permissions roleId

def memberCount (roleId : String) : Tx ℕ :=
  select fun db => (db.members.rows.filter (·.roleId = roleId)).length

/-- Whether the role is assigned to a member or to a pending, unexpired invitation. -/
def isInUse (roleId : String) : Tx Bool := do
  let now ← now
  select fun db => db.members.any (·.roleId = roleId) || db.invitations.any fun invitation =>
    invitation.roleId = roleId && invitation.status = .pending && now < invitation.expiresAt

def grant (roleId : String) (permissions : List String) : Tx Unit := do
  let taken ← select fun db => permissions.any fun permission =>
    (db.rolePermissions.get (pair roleId permission)).isSome
  .ensure (permissions.Nodup ∧ taken = false) .integrity
  write fun db => { db with
    rolePermissions := permissions.foldl (fun table permission => table.put ⟨roleId, permission⟩)
      db.rolePermissions }

def add (role : Role) (permissions : List String) : Tx Unit := do
  let taken ← select fun db => (db.roles.get role.id).isSome
  .ensure (taken = false) .duplicate
  write fun db => { db with roles := db.roles.put role }
  grant role.id permissions

def save (role : Role) : Tx Unit :=
  write fun db => { db with roles := db.roles.put role }

def replacePermissions (roleId : String) (permissions : Finset String) : Tx Unit := do
  let before ← select fun db => db.permissions roleId
  touch ((before ++ Table.ascending permissions).map (.permission roleId))
  write fun db => { db with rolePermissions := db.rolePermissions.filter (·.roleId ≠ roleId) }
  grant roleId (Table.ascending permissions)

def delete (role : Role) : Tx Unit :=
  write fun db => { db with
    rolePermissions := db.rolePermissions.filter (·.roleId ≠ role.id)
    roles := db.roles.erase role.id }

end Roles

/-! ### Members -/

/-- The membership of an account in a workspace. -/
def Db.member (db : Db) (workspaceId userId : String) : Option Member :=
  db.members.get (pair workspaceId userId)

/-- The accounts of the members of a workspace. -/
theorem Db.mem_userIds {db : Db} {workspaceId userId : String} :
  userId ∈ (db.members.rows.filter (·.workspaceId = workspaceId)).map Member.userId
    ↔ (db.member workspaceId userId).isSome
  := by
  simp only [List.mem_map, List.mem_filter, Table.mem_rows, decide_eq_true_eq]
  constructor
  · rintro ⟨member, ⟨hmem, hown⟩, rfl⟩
    exact Option.isSome_of_mem (Table.get_eq_some_iff.mpr ⟨hmem, by rw [Member.key, hown]⟩)
  · intro hsome
    obtain ⟨member, hmember⟩ := Option.isSome_iff_exists.mp hsome
    obtain ⟨hmem, hkey⟩ := Table.get_eq_some_iff.mp hmember
    obtain ⟨hown, hid⟩ := pair_inj.mp hkey
    exact ⟨member, ⟨hmem, hown⟩, hid⟩

/-- Nobody is a member of a workspace twice. -/
theorem Db.nodup_userIds (db : Db) (workspaceId : String) :
  ((db.members.rows.filter (·.workspaceId = workspaceId)).map Member.userId).Nodup
  := by
  refine List.Nodup.map_on ?_ (db.members.nodup_rows.filter _)
  intro member h member' h' hid
  simp only [List.mem_filter, Table.mem_rows, decide_eq_true_eq] at h h'
  exact Table.eq_of_key h.1 h'.1 (by rw [Member.key, Member.key, h.2, h'.2, hid])

/-- Whether an account belongs to some workspace. -/
def Db.belongsToAny (db : Db) (userId : String) : Bool :=
  db.members.any (·.userId = userId)

/-- The members of a workspace that hold a protected role. -/
def Db.ownerIds (db : Db) (workspaceId : String) : List String :=
  orderBy id <| (db.members.rows.filter fun member =>
    member.workspaceId = workspaceId && (db.roles.get member.roleId).any (·.isProtected)).map
      Member.userId

namespace Members

def get (workspaceId userId : String) : Tx (Option Member) :=
  select fun db => db.member workspaceId userId

/-- The members of a workspace with their account and role, by display name. -/
def ofWorkspace (workspaceId : String) : Tx (List (Member × User × Role)) := do
  let env ← platform
  select fun db =>
    orderByTexts env (fun (_, user, _) => [user.displayName, user.email]) <|
      (db.members.rows.filter (·.workspaceId = workspaceId)).filterMap fun member =>
        match db.users.get member.userId, db.roles.get member.roleId with
        | some user, some role => some (member, user, role)
        | _, _ => none

def userIds (workspaceId : String) : Tx (List String) :=
  select fun db => (db.members.rows.filter (·.workspaceId = workspaceId)).map Member.userId

def ownerIds (workspaceId : String) : Tx (List String) :=
  select fun db => db.ownerIds workspaceId

def belongsToAny (userId : String) : Tx Bool :=
  select fun db => db.belongsToAny userId

def hasEmail (workspaceId email : String) : Tx Bool := do
  let env ← platform
  select fun db => db.members.any fun member => member.workspaceId = workspaceId &&
    (db.users.get member.userId).any (·.email = env.lower email)

def add (member : Member) : Tx Unit := do
  let taken ← select fun db => (db.members.get member.key).isSome
  .ensure (taken = false) .duplicate
  write fun db => { db with members := db.members.put member }

def save (member : Member) : Tx Unit :=
  write fun db => { db with members := db.members.put member }

def delete (member : Member) : Tx Unit :=
  write fun db => { db with members := db.members.erase member.key }

def removeAll (workspaceId : String) : Tx Unit :=
  write fun db => { db with members := db.members.filter (·.workspaceId ≠ workspaceId) }

def removeUser (userId : String) : Tx Unit :=
  write fun db => { db with members := db.members.filter (·.userId ≠ userId) }

end Members

/-! ### Invitations -/

/-- The invitation revoked, if it is one of the workspace that is stored as pending. -/
def Invitation.revokePending (workspaceId : String) (invitation : Invitation) : Invitation :=
  if invitation.workspaceId = workspaceId ∧ invitation.status = .pending then
    { invitation with status := .revoked }
  else invitation

@[simp]
theorem Invitation.revokePending_id (workspaceId : String) (invitation : Invitation) :
  (invitation.revokePending workspaceId).id = invitation.id
  := by
  unfold revokePending
  split
  · rfl
  · rfl

theorem Invitation.revokePending_eq (workspaceId : String) (invitation : Invitation) :
  ∃ status, invitation.revokePending workspaceId = { invitation with status := status }
    ∧ (status = invitation.status ∨ (invitation.status = .pending ∧ status = .revoked))
  := by
  unfold revokePending
  split
  · next h => exact ⟨.revoked, rfl, Or.inr ⟨h.2, rfl⟩⟩
  · exact ⟨invitation.status, rfl, Or.inl rfl⟩

namespace Invitations

def get (invitationId : String) : Tx (Option Invitation) :=
  select fun db => db.invitations.get invitationId

def byToken (token : String) : Tx (Option Invitation) := do
  let env ← platform
  select fun db => db.invitations.find? (·.tokenHash = env.sha256 token)

/-- The invitations of a workspace, newest first, with the account that accepted each. -/
def ofWorkspace (workspaceId : String) : Tx (List (Invitation × Option User)) :=
  select fun db => (orderBy (fun invitation => -invitation.createdAt) <|
    db.invitations.rows.filter (·.workspaceId = workspaceId)).map fun invitation =>
      (invitation, invitation.acceptedBy.bind db.users.get)

def hasPending (workspaceId email : String) : Tx Bool := do
  let env ← platform
  let now ← now
  select fun db => db.invitations.any fun invitation => invitation.workspaceId = workspaceId &&
    invitation.email = env.lower email && invitation.status = .pending &&
    now < invitation.expiresAt

def add (invitation : Invitation) : Tx Unit := do
  let taken ← select fun db => (db.invitations.get invitation.id).isSome
  .ensure (taken = false) .duplicate
  write fun db => { db with invitations := db.invitations.put invitation }

def save (invitation : Invitation) : Tx Unit :=
  write fun db => { db with invitations := db.invitations.put invitation }

def revokePending (workspaceId : String) : Tx Unit :=
  write fun db => { db with
    invitations := db.invitations.map (·.revokePending workspaceId)
      (Invitation.revokePending_id workspaceId) }

def deleteForRole (roleId : String) : Tx Unit :=
  write fun db => { db with invitations := db.invitations.filter (·.roleId ≠ roleId) }

def deleteSentBy (userId : String) : Tx Unit :=
  write fun db => { db with invitations := db.invitations.filter (·.invitedBy ≠ userId) }

end Invitations

end MvpApi
