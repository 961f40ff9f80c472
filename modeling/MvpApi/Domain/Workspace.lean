import MvpApi.Domain.User
import Mathlib.Data.Finset.Basic
import Mathlib.Data.List.Sort

/-!
# Workspaces and the people in them

Workspaces, roles with permissions, members and invitations, and the rules on one of them
at a time. A rule that the domain refuses to break is a function to `Except DomainError`.
Ids, tokens and times are drawn by the caller, in the order in which the constructors of
the source draw them.
-/

set_option autoImplicit false

namespace MvpApi

def reservedSlugs : List String := [
  "profile", "sessions", "settings", "onboarding", "login", "sign-in", "invite", "workspaces",
  "reset-password", "delete-account", "api", "assets", "availability", "media", "products"]

/-- Seven days. -/
def invitationLifetime : Time := 7 * 24 * 60 * 60 * 1000000

def workspaceNotFound : String := "Workspace not found"
def memberNotFound : String := "Member not found"
def roleNotFound : String := "Role not found"
def invitationNotFound : String := "Invitation not found"
def invitationUnusable : String := "This invitation is invalid, expired or already used"
def ownerIsProtected : String := "Owner is protected. Use transfer ownership instead"
def slugTaken : String := "This workspace slug is already taken"

/-- The letters and digits of a slug. -/
def isSlugLetter (c : Char) : Bool := ('a' ≤ c && c ≤ 'z') || ('0' ≤ c && c ≤ '9')

/-- A slug is the workspace's address: routable, lowercase, not a reserved path. It matches
`^[a-z0-9][a-z0-9-]*[a-z0-9]$`. -/
def isValidSlug (slug : String) : Bool :=
  3 ≤ slug.toList.length && slug.toList.length ≤ 50 &&
  slug.toList.all (fun c => isSlugLetter c || c == '-') &&
  slug.toList.head?.any isSlugLetter && slug.toList.getLast?.any isSlugLetter &&
  slug ∉ reservedSlugs

/-- The permissions to give a role, unless they hold an owner action or an unknown one. -/
def validatePermissions (permissions : List String) : Except DomainError (Finset String) :=
  if ∃ action ∈ ownerActions, action ∈ permissions then
    .error (.forbidden "Only the owner can delete or transfer a workspace")
  else if ∀ action ∈ permissions, action ∈ catalogActions then
    .ok permissions.toFinset
  else
    .error (.invalid "Unknown permission")

def ensureAssignableRoleName (name : String) : Except DomainError Unit :=
  if strip name = ownerRole then .error (.forbidden "Owner is a protected role") else .ok ()

@[simp]
theorem ensureAssignableRoleName_eq_ok {name : String} {u : Unit} :
  ensureAssignableRoleName name = .ok u ↔ strip name ≠ ownerRole
  := by
  unfold ensureAssignableRoleName
  split
  · simp [*]
  · simp [*]

@[simp]
theorem validatePermissions_eq_ok {permissions : List String} {set : Finset String} :
  validatePermissions permissions = .ok set
    ↔ (∀ action ∈ ownerActions, action ∉ permissions)
      ∧ (∀ action ∈ permissions, action ∈ catalogActions) ∧ set = permissions.toFinset
  := by
  unfold validatePermissions
  split
  · next h =>
      constructor
      · intro h'
        cases h'
      · rintro ⟨h', _⟩
        obtain ⟨action, ha, hp⟩ := h
        exact absurd hp (h' action ha)
  · next h =>
      have h' : ∀ action ∈ ownerActions, action ∉ permissions :=
        fun action ha hp => h ⟨action, ha, hp⟩
      split
      · next hc =>
          constructor
          · intro heq
            exact ⟨h', hc, (Except.ok.inj heq).symm⟩
          · rintro ⟨_, _, rfl⟩
            rfl
      · next hc =>
          constructor
          · intro heq
            cases heq
          · rintro ⟨_, hc', _⟩
            exact absurd hc' hc

/-! ### Workspaces -/

/-- A workspace, soft-deleted when `deletedAt` is set. -/
structure Workspace where
  id : String
  name : String
  slug : String
  ownerId : String
  logoUrl : Option String
  logoKey : Option String
  createdAt : Time
  deletedAt : Option Time
deriving DecidableEq, Repr

namespace Workspace

def create (id name slug ownerId : String) (now : Time) : Except DomainError Workspace :=
  if strip name = "" then .error (.invalid "Enter a workspace name")
  else .ok {
    id := id, name := strip name, slug := slug, ownerId := ownerId
    logoUrl := none, logoKey := none, createdAt := now, deletedAt := none }

def rename (workspace : Workspace) (name slug : String) : Workspace :=
  { workspace with name := strip name, slug := slug }

/-- Point at a new logo, or at none; the key it replaces is `workspace.logoKey`. -/
def replaceLogo (workspace : Workspace) (key url : Option String) : Workspace :=
  { workspace with logoKey := key, logoUrl := url }

def isDeleted (workspace : Workspace) : Bool := workspace.deletedAt.isSome

/-- Members lose access at once and the slug is freed; the rows go in the purge. -/
def softDelete (workspace : Workspace) (now : Time) (newId : String) : Workspace :=
  { workspace with deletedAt := some now, slug := truncate ("deleted-" ++ newId) 50 }

/-- What a member may do regardless of their role: the owner anything, nobody else an owner
action, everybody a read. `none` means the member's role decides. -/
def grants (workspace : Workspace) (userId action : String) : Option Bool :=
  if userId = workspace.ownerId then some true
  else if action ∈ ownerActions then some false
  else if endswith action ".read" then some true
  else none

/-- The owner holds every catalog permission plus the owner-only actions that are not
assignable to a role. -/
def permissionsFor (workspace : Workspace) (userId : String) (rolePermissions : List String) :
    List String :=
  if userId ≠ workspace.ownerId then rolePermissions
  else catalogActions ++
    (ownerActions.filter (· ∉ catalogActions)).insertionSort (· ≤ ·)

def singleOwnerMessage : String := "Workspace must have exactly one owner"

/-- Exactly one member holds the protected owner role, and it is `ownerId`. -/
def ensureSingleOwner (workspace : Workspace) (ownerIds : List String) :
    Except DomainError Unit :=
  if ownerIds ≠ [workspace.ownerId] then .error (.conflict singleOwnerMessage) else .ok ()

def ensureNotTheOwner (workspace : Workspace) (userId message : String) :
    Except DomainError Unit :=
  if userId = workspace.ownerId then .error (.forbidden message) else .ok ()

@[simp]
theorem create_eq_ok {id name slug ownerId : String} {now : Time} {workspace : Workspace} :
  create id name slug ownerId now = .ok workspace
    ↔ ¬ Blank name ∧ workspace = ⟨id, strip name, slug, ownerId, none, none, now, none⟩
  := by
  unfold create Blank
  split
  · next h => simp [h]
  · next h => simp [h, @eq_comm _ workspace]

@[simp]
theorem ensureSingleOwner_eq_ok {workspace : Workspace} {ownerIds : List String} {u : Unit} :
  workspace.ensureSingleOwner ownerIds = .ok u ↔ ownerIds = [workspace.ownerId]
  := by
  unfold ensureSingleOwner
  split
  · next h =>
      constructor
      · intro h'
        cases h'
      · intro h'
        exact absurd h' h
  · next h =>
      constructor
      · intro _
        exact not_not.mp h
      · intro _
        rfl

@[simp]
theorem ensureNotTheOwner_eq_ok {workspace : Workspace} {userId message : String} {u : Unit} :
  workspace.ensureNotTheOwner userId message = .ok u ↔ userId ≠ workspace.ownerId
  := by
  unfold ensureNotTheOwner
  split
  · simp [*]
  · simp [*]

@[simp]
theorem create_eq_error {id name slug ownerId : String} {now : Time} {e : DomainError} :
  create id name slug ownerId now = .error e
    ↔ Blank name ∧ e = .invalid "Enter a workspace name"
  := by
  unfold create Blank
  split
  · next h => simp [h, eq_comm]
  · next h => simp [h]

@[simp]
theorem ensureSingleOwner_eq_error {workspace : Workspace} {ownerIds : List String}
    {e : DomainError} :
  workspace.ensureSingleOwner ownerIds = .error e
    ↔ ownerIds ≠ [workspace.ownerId] ∧ e = .conflict singleOwnerMessage
  := by
  unfold ensureSingleOwner
  split
  · next h => simp [h, eq_comm]
  · next h => simp [not_not.mp h]

@[simp]
theorem ensureNotTheOwner_eq_error {workspace : Workspace} {userId message : String}
    {e : DomainError} :
  workspace.ensureNotTheOwner userId message = .error e
    ↔ userId = workspace.ownerId ∧ e = .forbidden message
  := by
  unfold ensureNotTheOwner
  split
  · simp [*, eq_comm]
  · simp [*]

end Workspace

/-! ### Roles -/

/-- A role of a workspace. -/
structure Role where
  id : String
  workspaceId : String
  name : String
  isSystem : Bool
  isProtected : Bool
deriving DecidableEq, Repr

namespace Role

/-- One of the system roles; the one named `owner` is protected. -/
def system (id workspaceId name : String) : Role where
  id := id
  workspaceId := workspaceId
  name := name
  isSystem := true
  isProtected := name == ownerRole

def custom (id workspaceId name : String) : Except DomainError Role := do
  ensureAssignableRoleName name
  return {
    id := id, workspaceId := workspaceId, name := strip name
    isSystem := false, isProtected := false }

def rename (role : Role) (name : String) : Except DomainError Role := do
  ensureAssignableRoleName name
  return { role with name := strip name }

def ensureConfigurable (role : Role) : Except DomainError Unit :=
  if role.isProtected then .error (.forbidden ownerIsProtected) else .ok ()

/-- Whether the role is the system role that invitations hand out by default. -/
def IsDefaultMember (role : Role) : Prop := role.isSystem ∧ role.name = defaultMemberRole

instance (role : Role) : Decidable role.IsDefaultMember :=
  inferInstanceAs (Decidable (role.isSystem ∧ role.name = defaultMemberRole))

/-- Inviting hands out the system member role only; any other role is a role assignment and
also takes `roles.manage`. -/
def ensureInvitable (role : Role) (mayManageRoles : Bool) : Except DomainError Unit :=
  if ¬ role.IsDefaultMember ∧ ¬ mayManageRoles then
    .error (.forbidden "Inviting with a role other than member requires managing roles")
  else .ok ()

@[simp]
theorem custom_eq_ok {id workspaceId name : String} {role : Role} :
  custom id workspaceId name = .ok role
    ↔ strip name ≠ ownerRole ∧ role = ⟨id, workspaceId, strip name, false, false⟩
  := by
  unfold custom
  simp [@eq_comm _ role]

@[simp]
theorem rename_eq_ok {role role' : Role} {name : String} :
  role.rename name = .ok role' ↔ strip name ≠ ownerRole ∧ role' = { role with name := strip name }
  := by
  unfold rename
  simp [@eq_comm _ role']

@[simp]
theorem ensureConfigurable_eq_ok {role : Role} {u : Unit} :
  role.ensureConfigurable = .ok u ↔ role.isProtected = false
  := by
  unfold ensureConfigurable
  split
  · simp [*]
  · simp_all

@[simp]
theorem ensureConfigurable_eq_error {role : Role} {e : DomainError} :
  role.ensureConfigurable = .error e
    ↔ role.isProtected = true ∧ e = .forbidden ownerIsProtected
  := by
  unfold ensureConfigurable
  split
  · simp [*, eq_comm]
  · simp_all

@[simp]
theorem ensureInvitable_eq_ok {role : Role} {mayManageRoles : Bool} {u : Unit} :
  role.ensureInvitable mayManageRoles = .ok u ↔ (role.IsDefaultMember ∨ mayManageRoles)
  := by
  unfold ensureInvitable
  split
  · simp_all
  · simp_all [or_iff_not_imp_left]

end Role

/-! ### Members -/

/-- The membership of an account in a workspace. -/
structure Member where
  workspaceId : String
  userId : String
  roleId : String
  joinedAt : Time
deriving DecidableEq, Repr

def Member.join (workspaceId userId roleId : String) (now : Time) : Member :=
  ⟨workspaceId, userId, roleId, now⟩

/-! ### Invitations -/

/-- The status an invitation is stored with. -/
inductive InvitationStatus where
  | pending
  | accepted
  | revoked
deriving DecidableEq, Repr

/-- The status an invitation has at a time: the stored one, or expired. -/
inductive CurrentStatus where
  | stored (status : InvitationStatus)
  | expired
deriving DecidableEq, Repr

/-- An invitation of an address to a workspace. Of its token only the hash is kept. -/
structure Invitation where
  id : String
  workspaceId : String
  email : String
  roleId : String
  tokenHash : String
  status : InvitationStatus
  invitedBy : String
  acceptedBy : Option String
  expiresAt : Time
  createdAt : Time
deriving DecidableEq, Repr

namespace Invitation

/-- A new invitation for the token `token`, created at the time `created`. -/
def issue (env : Env) (id token workspaceId email roleId invitedBy : String) (created : Time) :
    Invitation where
  id := id
  workspaceId := workspaceId
  email := env.lower email
  roleId := roleId
  tokenHash := env.sha256 token
  status := .pending
  invitedBy := invitedBy
  acceptedBy := none
  expiresAt := created + invitationLifetime
  createdAt := created

def currentStatus (invitation : Invitation) (now : Time) : CurrentStatus :=
  if invitation.status = .pending ∧ invitation.expiresAt ≤ now then .expired
  else .stored invitation.status

def ensureUsable (invitation : Invitation) (now : Time) : Except DomainError Unit :=
  if invitation.currentStatus now ≠ .stored .pending then .error (.gone invitationUnusable)
  else .ok ()

def ensureAddressedTo (invitation : Invitation) (lower : String → String) (email : String) :
    Except DomainError Unit :=
  if lower email ≠ invitation.email then
    .error (.forbidden "Sign in with the email this invitation was sent to")
  else .ok ()

def revoke (invitation : Invitation) (now : Time) : Except DomainError Invitation :=
  if invitation.currentStatus now ≠ .stored .pending then
    .error (.conflict "This invitation is no longer pending")
  else .ok { invitation with status := .revoked }

def accept (invitation : Invitation) (lower : String → String) (userId email : String)
    (now : Time) : Except DomainError Invitation := do
  invitation.ensureUsable now
  invitation.ensureAddressedTo lower email
  return { invitation with status := .accepted, acceptedBy := some userId }

/-- An invitation is usable at a time when it is pending and expires later. -/
def Usable (invitation : Invitation) (now : Time) : Prop :=
  invitation.status = .pending ∧ now < invitation.expiresAt

instance (invitation : Invitation) (now : Time) : Decidable (invitation.Usable now) :=
  inferInstanceAs (Decidable (_ ∧ _))

theorem currentStatus_eq_pending {invitation : Invitation} {now : Time} :
  invitation.currentStatus now = .stored .pending ↔ invitation.Usable now
  := by
  unfold currentStatus Usable
  split
  · next h => simp [h.2]
  · next h =>
      simp only [CurrentStatus.stored.injEq]
      constructor
      · intro h'
        exact ⟨h', not_le.mp fun hle => h ⟨h', hle⟩⟩
      · rintro ⟨h', _⟩
        exact h'

@[simp]
theorem ensureUsable_eq_ok {invitation : Invitation} {now : Time} {u : Unit} :
  invitation.ensureUsable now = .ok u ↔ invitation.Usable now
  := by
  rw [ensureUsable, ← currentStatus_eq_pending]
  split
  · simp [*]
  · simp_all

@[simp]
theorem ensureAddressedTo_eq_ok {invitation : Invitation} {lower : String → String}
    {email : String} {u : Unit} :
  invitation.ensureAddressedTo lower email = .ok u ↔ lower email = invitation.email
  := by
  unfold ensureAddressedTo
  split
  · simp [*]
  · simp_all

@[simp]
theorem revoke_eq_ok {invitation invitation' : Invitation} {now : Time} :
  invitation.revoke now = .ok invitation'
    ↔ invitation.Usable now ∧ invitation' = { invitation with status := .revoked }
  := by
  rw [revoke, ← currentStatus_eq_pending]
  split
  · simp [*]
  · simp_all [eq_comm]

@[simp]
theorem accept_eq_ok {invitation invitation' : Invitation} {lower : String → String}
    {userId email : String} {now : Time} :
  invitation.accept lower userId email now = .ok invitation'
    ↔ invitation.Usable now ∧ lower email = invitation.email
      ∧ invitation' = { invitation with status := .accepted, acceptedBy := some userId }
  := by
  unfold accept
  simp [@eq_comm _ invitation']

end Invitation

end MvpApi
