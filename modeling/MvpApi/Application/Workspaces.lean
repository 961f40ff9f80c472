import MvpApi.Application.Access

/-!
# The transactions on workspaces

The bodies of the transactions of the use cases on workspaces, their roles, members and
invitations, and the reads that run outside a transaction. Every change of a workspace
first locks its row and then checks access.
-/

set_option autoImplicit false

namespace MvpApi

open Tx

/-- A workspace as one of its members sees it. -/
structure WorkspaceView where
  workspace : Workspace
  roleId : String
  permissions : List String
deriving DecidableEq, Repr

/-- A role with its permissions, and the number of its members. -/
structure RoleView where
  role : Role
  permissions : List String
  memberCount : ℕ
deriving DecidableEq, Repr

/-- A member with the account and the name of the role. -/
structure MemberView where
  member : Member
  user : User
  roleName : String
deriving DecidableEq, Repr

/-- An invitation with the account that accepted it. -/
structure InvitationView where
  invitation : Invitation
  acceptedBy : Option User
deriving DecidableEq, Repr

/-- An invitation as the holder of its token sees it. -/
structure InvitationPreview where
  workspace : Workspace
  invitation : Invitation
  roleName : String
deriving DecidableEq, Repr

def workspaceView (workspace : Workspace) (userId : String) : Tx WorkspaceView := do
  let member ← check (member? (← Members.get workspace.id userId))
  let rolePermissions ←
    if workspace.ownerId = userId then pure [] else Roles.permissions member.roleId
  return ⟨workspace, member.roleId, workspace.permissionsFor userId rolePermissions⟩
where
  /-- The member, or a `ForbiddenError` when there is none. -/
  member? (member : Option Member) : Except DomainError Member :=
    match member with
    | some member => .ok member
    | none => .error (.forbidden "Workspace membership required")

/-- A role of the workspace that is not protected. -/
def configurableRole (workspaceId roleId : String) : Tx Role := do
  let role ← Roles.get roleId
  let role ← check (found (role.filter (·.workspaceId = workspaceId)) roleNotFound)
  check role.ensureConfigurable
  return role

/-- The invitation of a token, if it can be accepted now. -/
def usableInvitation (token : String) : Tx Invitation := do
  let invitation ← check (invitation? (← Invitations.byToken token))
  let now ← now
  check (invitation.ensureUsable now)
  return invitation
where
  /-- The invitation, or a `GoneError` when there is none. -/
  invitation? (invitation : Option Invitation) : Except DomainError Invitation :=
    match invitation with
    | some invitation => .ok invitation
    | none => .error (.gone invitationUnusable)

/-- Accept an invitation inside the caller's transaction. -/
def joinWithInvitation (token userId : String) : Tx WorkspaceView := do
  require userId "invitations.accept" userId
  let invitation ← usableInvitation token
  let env ← platform
  let user ← check (existing (← Users.get userId))
  check (invitation.ensureAddressedTo env.lower user.email)
  let workspace ← check (found (← Workspaces.lock invitation.workspaceId) workspaceNotFound)
  let _ ← configurableRole workspace.id invitation.roleId
  let member ← Members.get workspace.id userId
  refuseUnless (member = none) (.conflict "You already belong to this workspace")
  -- Accept before adding the member: an invitation that expires in between fails before
  -- anything changes.
  let accepted ← check (invitation.accept env.lower userId user.email (← now))
  Invitations.save accepted
  Members.add (Member.join workspace.id userId invitation.roleId (← now))
  Users.save user.joinedAWorkspace
  flush
  workspaceView workspace userId

namespace WorkspaceTx

/-- The live workspace, locked, or a `NotFoundError`. -/
def locked (workspaceId : String) : Tx Workspace := do
  check (found (← Workspaces.lock workspaceId) workspaceNotFound)

/-- Add the system roles of a list to a workspace, and its creator as the owner. -/
def addSystemRoles (workspaceId userId : String) : List (String × List String) → Tx Unit
  | [] => pure ()
  | (roleName, permissions) :: roles => do
      let role := Role.system (← newId) workspaceId roleName
      Roles.add role permissions
      if roleName = ownerRole then
        Members.add (Member.join workspaceId userId role.id (← now))
      addSystemRoles workspaceId userId roles

/-- A new workspace with the four system roles and its creator as the owner. -/
def create (name slug userId : String) : Tx WorkspaceView := do
  require userId "workspaces.create" userId
  let user ← check (existing (← Users.get userId))
  let workspace ← check (Workspace.create (← newId) name slug userId (← now))
  Workspaces.add workspace
  addSystemRoles workspace.id userId systemRoles
  Users.save user.createdAWorkspace
  flush
  check (workspace.ensureSingleOwner (← Members.ownerIds workspace.id))
  workspaceView workspace userId

def update (workspaceId name slug userId : String) : Tx WorkspaceView := do
  let workspace ← locked workspaceId
  require userId "workspace.update" workspaceId
  let workspace := workspace.rename name slug
  Workspaces.save workspace
  flush
  workspaceView workspace userId

/-- Set the logo; the result also has the key of the logo it replaces. -/
def replaceLogo (workspaceId : String) (key url : Option String) (userId : String) :
    Tx (WorkspaceView × Option String) := do
  let workspace ← locked workspaceId
  require userId "workspace.update" workspaceId
  let previous := workspace.logoKey
  let workspace := workspace.replaceLogo key url
  Workspaces.save workspace
  return (← workspaceView workspace userId, previous)

/-- People who no longer belong to any workspace go back to that onboarding step. -/
def returnToWorkspaceStep : List String → Tx Unit
  | [] => pure ()
  | memberId :: userIds => do
      let user ← Users.get memberId
      let belongs ← Members.belongsToAny memberId
      match user, belongs with
      | some user, false => Users.save user.leftEveryWorkspace
      | _, _ => pure ()
      returnToWorkspaceStep userIds

/-- Soft delete: members lose access now; the purge removes the rows. -/
def delete (workspaceId userId : String) : Tx Unit := do
  let workspace ← locked workspaceId
  require userId "workspace.delete" workspaceId
  let memberIds ← Members.userIds workspaceId
  Members.removeAll workspaceId
  Invitations.revokePending workspaceId
  let now ← now
  Workspaces.save (workspace.softDelete now (← newId))
  flush
  returnToWorkspaceStep memberIds

def roleView (role : Role) : Tx RoleView := do
  let permissions ← Roles.permissions role.id
  return ⟨role, permissions, ← Roles.memberCount role.id⟩

/-- Create a custom role, or rename a configurable one. -/
def saveRole (workspaceId : String) (roleId : Option String) (name userId : String) :
    Tx RoleView := do
  let _ ← locked workspaceId
  require userId "roles.manage" workspaceId
  check (ensureAssignableRoleName name)
  let role ← match roleId with
    | none => do
        let role ← check (Role.custom (← newId) workspaceId name)
        Roles.add role []
        pure role
    | some roleId => do
        let role ← configurableRole workspaceId roleId
        let role ← check (role.rename name)
        Roles.save role
        pure role
  flush
  roleView role

def deleteRole (workspaceId roleId userId : String) : Tx Unit := do
  let _ ← locked workspaceId
  require userId "roles.manage" workspaceId
  let role ← configurableRole workspaceId roleId
  let inUse ← Roles.isInUse roleId
  refuseUnless (inUse = false)
    (.conflict "Reassign members and revoke pending invitations before deleting this role")
  Invitations.deleteForRole roleId
  Roles.delete role

def setPermissions (workspaceId roleId : String) (permissions : List String) (userId : String) :
    Tx Unit := do
  let _ ← locked workspaceId
  require userId "roles.manage" workspaceId
  let _ ← configurableRole workspaceId roleId
  let permissions ← check (validatePermissions permissions)
  Roles.replacePermissions roleId permissions

def setMemberRole (workspaceId memberId roleId userId : String) : Tx Unit := do
  let workspace ← locked workspaceId
  require userId "roles.manage" workspaceId
  let role ← configurableRole workspaceId roleId
  check (workspace.ensureNotTheOwner memberId ownerIsProtected)
  let member ← check (found (← Members.get workspaceId memberId) memberNotFound)
  Members.save { member with roleId := role.id }
  flush
  check (workspace.ensureSingleOwner (← Members.ownerIds workspaceId))

def removeMember (workspaceId memberId userId : String) : Tx Unit := do
  let workspace ← locked workspaceId
  require userId "members.remove" workspaceId
  check (workspace.ensureNotTheOwner memberId "Transfer ownership before removing the owner")
  let member ← check (found (← Members.get workspaceId memberId) memberNotFound)
  Members.delete member
  flush
  check (workspace.ensureSingleOwner (← Members.ownerIds workspaceId))
  returnToWorkspaceStep [memberId]

/-- The role named `admin` of a workspace, added again if it was renamed or deleted. -/
def admin (workspaceId : String) : Tx Role := do
  match ← Roles.byName workspaceId adminRole with
  | some admin => pure admin
  | none =>
      let admin := Role.system (← newId) workspaceId adminRole
      Roles.add admin adminPermissions
      pure admin

/-- The target takes the owner role; the previous owner becomes an admin. -/
def transfer (workspaceId targetId userId : String) : Tx Unit := do
  let workspace ← locked workspaceId
  require userId "workspace.transfer" workspaceId
  refuseUnless (targetId ≠ userId) (.invalid "Select a different member")
  let target ← Members.get workspaceId targetId
  let previous ← Members.get workspaceId userId
  let target ← check (found target memberNotFound)
  let previous ← check (found previous memberNotFound)
  let admin ← admin workspaceId
  Members.save { target with roleId := previous.roleId }
  Members.save { previous with roleId := admin.id }
  let workspace := { workspace with ownerId := targetId }
  Workspaces.save workspace
  flush
  check (workspace.ensureSingleOwner (← Members.ownerIds workspaceId))

/-- Invite an address; the result has the workspace, the invitation and its token. -/
def issue (workspaceId email roleId userId : String) : Tx (Workspace × Invitation × String) := do
  let workspace ← locked workspaceId
  require userId "members.invite" workspaceId
  let role ← configurableRole workspaceId roleId
  let mayManageRoles ← permits userId "roles.manage" workspaceId
  check (role.ensureInvitable mayManageRoles)
  let hasEmail ← Members.hasEmail workspaceId email
  let known ← if hasEmail then pure true else Invitations.hasPending workspaceId email
  refuseUnless (known = false)
    (.conflict "This email is already a member or has a pending invitation")
  let env ← platform
  let token ← newToken
  let created ← now
  let invitation :=
    Invitation.issue env (← newId) token workspaceId email roleId userId created
  Invitations.add invitation
  return (workspace, invitation, token)

def revoke (workspaceId invitationId userId : String) : Tx Unit := do
  let _ ← locked workspaceId
  require userId "invitations.revoke" workspaceId
  let invitation ← Invitations.get invitationId
  let invitation ← check
    (found (invitation.filter (·.workspaceId = workspaceId)) invitationNotFound)
  let revoked ← check (invitation.revoke (← now))
  Invitations.save revoked

def accept (token userId : String) : Tx WorkspaceView :=
  joinWithInvitation token userId

/-! ### Reads -/

/-- The views of the workspaces of a list. -/
def workspaceViews (userId : String) : List Workspace → Tx (List WorkspaceView)
  | [] => pure []
  | workspace :: workspaces => do
      let view ← workspaceView workspace userId
      return view :: (← workspaceViews userId workspaces)

def listMine (userId : String) : Tx (List WorkspaceView) := do
  require userId "workspaces.list" userId
  workspaceViews userId (← Workspaces.ofMember userId)

def slugAvailable (slug userId : String) : Tx Bool := do
  require userId "workspaces.availability" userId
  refuseUnless (isValidSlug slug = true) (.invalid "Invalid workspace slug")
  return !(← Workspaces.slugExists slug)

def get (workspaceId userId : String) : Tx WorkspaceView := do
  require userId "workspace.read" workspaceId
  let workspace ← check (found (← Workspaces.get workspaceId) workspaceNotFound)
  workspaceView workspace userId

/-- The views of the roles of a list. -/
def roleViews : List Role → Tx (List RoleView)
  | [] => pure []
  | role :: roles => do
      let view ← roleView role
      return view :: (← roleViews roles)

def roles (workspaceId userId : String) : Tx (List RoleView) := do
  require userId "workspace.read" workspaceId
  roleViews (← Roles.ofWorkspace workspaceId)

def permissionCatalog (workspaceId userId : String) : Tx (List CatalogEntry) := do
  require userId "workspace.read" workspaceId
  return catalog

def members (workspaceId userId : String) : Tx (List MemberView) := do
  require userId "workspace.read" workspaceId
  return (← Members.ofWorkspace workspaceId).map fun (member, user, role) =>
    ⟨member, user, role.name⟩

def invitations (workspaceId userId : String) : Tx (List InvitationView) := do
  require userId "workspace.read" workspaceId
  return (← Invitations.ofWorkspace workspaceId).map fun (invitation, acceptedBy) =>
    ⟨invitation, acceptedBy⟩

def previewInvitation (token : String) : Tx InvitationPreview := do
  let invitation ← usableInvitation token
  let workspace ← check (found (← Workspaces.get invitation.workspaceId) workspaceNotFound)
  let role ← configurableRole invitation.workspaceId invitation.roleId
  return ⟨workspace, invitation, role.name⟩

end WorkspaceTx

end MvpApi
