import MvpApi.Domain.Platform

/-!
# Who may do what

The catalog of the permissions a role can hold, the system roles every workspace is
created with, and which onboarding step each action needs. An action is named by a text;
the ones that start with `profile.` or `sessions.`, and four more, are on the account of
whoever performs them, and all others are on a workspace.
-/

set_option autoImplicit false

namespace MvpApi

/-- How far an account has come in signing up. -/
inductive OnboardingStatus where
  | profilePending
  | workspacePending
  | completed
deriving DecidableEq, Repr

/-- A permission: its action, category, label and description. -/
abbrev CatalogEntry := String × String × String × String

/-- The permissions a role can hold. The owner holds every one implicitly. -/
def catalog : List CatalogEntry := [
  ("workspace.update", "Workspace", "Edit workspace",
    "Change the workspace name, address and logo."),
  ("workspace.delete", "Workspace", "Delete workspace",
    "Permanently delete the workspace and everything in it."),
  ("members.invite", "Members", "Invite members",
    "Send invitations and share invite links. Inviting with a role other than member " ++
    "also takes Manage roles and permissions."),
  ("members.remove", "Members", "Remove members", "Remove people from the workspace."),
  ("invitations.revoke", "Members", "Revoke invitations",
    "Cancel pending invitations before they are accepted."),
  ("roles.manage", "Permissions", "Manage roles and permissions",
    "Create, rename and delete roles, change their permissions and assign them to members."),
  ("products.create", "Products", "Create products", "Add new products to the catalog."),
  ("products.update", "Products", "Edit products and images",
    "Edit product details, pricing and images."),
  ("products.delete", "Products", "Delete products", "Remove products from the catalog.")]

/-- The actions of the catalog. -/
def catalogActions : List String := catalog.map Prod.fst

def ownerOnly : String := "workspace.delete"

/-- The actions refused to everyone but the owner, whatever their role grants. -/
def ownerActions : List String := [ownerOnly, "workspace.transfer"]

def adminPermissions : List String := catalogActions.filter (· ≠ ownerOnly)

/-- The roles a workspace is created with, and the permissions of each. -/
def systemRoles : List (String × List String) := [
  ("owner", []),
  ("admin", adminPermissions),
  ("member", catalogActions.filter (startswith · "products.")),
  ("viewer", [])]

def ownerRole : String := "owner"
def adminRole : String := "admin"
def defaultMemberRole : String := "member"

def permissionDenied : String := "You do not have permission to perform this action"

def onboarded : List OnboardingStatus := [.completed]
def readyForAWorkspace : List OnboardingStatus := [.completed, .workspacePending]
def anyStatus : List OnboardingStatus := [.profilePending, .workspacePending, .completed]

/-- Actions on oneself name the account as their resource, not a workspace. -/
def isOnOwnAccount (action : String) : Bool :=
  startswith action "profile." || startswith action "sessions." ||
  action ∈ ["workspaces.list", "workspaces.create", "workspaces.availability",
    "invitations.accept"]

/-- The onboarding statuses allowed to perform an action. -/
def onboardingNeededFor (action : String) : List OnboardingStatus :=
  if action ∈ ["workspaces.create", "workspaces.availability"] then
    readyForAWorkspace
  else if startswith action "profile." || startswith action "sessions." ||
      action == "invitations.accept" then
    anyStatus
  else
    onboarded

end MvpApi
