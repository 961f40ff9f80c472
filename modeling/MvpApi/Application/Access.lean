import MvpApi.Database.Repositories

/-!
# Access checks

An access check runs inside the transaction of the use case it guards, so a permission
and the state it protects are read together. `require` refuses an account that may not
perform an action on a resource: the id of the account itself, or that of a workspace.
-/

set_option autoImplicit false

namespace MvpApi

open Tx

/-- Whether an account may perform an action on a resource. -/
def permits (userId action resource : String) : Tx Bool := do
  if isOnOwnAccount action then
    return resource = userId
  else
    let workspace ← Workspaces.get resource
    let member ← match workspace with
      | some _ => Members.get resource userId
      | none => pure none
    match workspace, member with
    | some workspace, some member =>
        match workspace.grants userId action with
        | some granted => return granted
        | none => return action ∈ (← Roles.permissions member.roleId)
    | _, _ => return false

/-- Refuse unless an account may perform an action on a resource. -/
def require (userId action resource : String) : Tx Unit := do
  let user ← check (existing (← Users.get userId))
  check (user.ensureOnboarded (onboardingNeededFor action))
  let permitted ← permits userId action resource
  refuseUnless (permitted = true) (.forbidden permissionDenied)

namespace AccessService

/-- The workspace at a slug if the account belongs to it, and may perform the action there
when one is given. -/
def workspace (userId slug : String) (action : Option String) : Tx Workspace := do
  let user ← check (existing (← Users.get userId))
  check (user.ensureOnboarded onboarded)
  let workspace ← check (found (← Workspaces.bySlug slug) workspaceNotFound)
  let member ← Members.get workspace.id userId
  refuseUnless (member.isSome = true) (.notFound workspaceNotFound)
  let permitted ← match action with
    | some action => permits userId action workspace.id
    | none => pure true
  refuseUnless (permitted = true) (.forbidden permissionDenied)
  return workspace

end AccessService

/-! ### What an access check accepts -/

/-- Whether an account may perform an action on a resource, as the rows stand. -/
def Db.permits (db : Db) (userId action resource : String) : Bool :=
  if isOnOwnAccount action then
    resource = userId
  else
    match db.live resource, db.member resource userId with
    | some workspace, some member =>
        (workspace.grants userId action).getD (action ∈ db.permissions member.roleId)
    | _, _ => false

/-- The account exists, is onboarded as far as the action needs, and may perform it. -/
def Db.Allows (db : Db) (userId action resource : String) : Prop :=
  (∃ user, db.users.get userId = some user
    ∧ user.onboardingStatus ∈ onboardingNeededFor action)
  ∧ db.permits userId action resource = true

/-- On a workspace an action is permitted to members of a live workspace, by what the
workspace grants them or else by what their role does. -/
theorem Db.permits_eq_true {db : Db} {userId action workspaceId : String}
    (h : isOnOwnAccount action = false) :
  db.permits userId action workspaceId = true
    ↔ ∃ workspace member, db.live workspaceId = some workspace
      ∧ db.member workspaceId userId = some member
      ∧ (workspace.grants userId action).getD (action ∈ db.permissions member.roleId) = true
  := by
  unfold Db.permits
  rw [h]
  cases hw : db.live workspaceId with
  | none => simp
  | some workspace =>
      cases hm : db.member workspaceId userId with
      | none => simp
      | some member => simp

/-- Only the owner may do what is reserved for the owner. -/
theorem Db.Allows.owner {db : Db} {userId action workspaceId : String} {workspace : Workspace}
    (h : db.Allows userId action workspaceId) (own : isOnOwnAccount action = false)
    (reserved : action ∈ ownerActions) (live : db.live workspaceId = some workspace) :
  workspace.ownerId = userId
  := by
  obtain ⟨workspace', member, hlive, _, hgrants⟩ := (Db.permits_eq_true own).mp h.2
  obtain rfl : workspace = workspace' := Option.some.inj (live.symm.trans hlive)
  by_contra hne
  rw [Workspace.grants, if_neg (Ne.symm hne), if_pos reserved] at hgrants
  cases hgrants

open Exec

variable {env : Env} {s s' : Session}

/-- The access check reads whether the rows permit the action. -/
@[simp]
theorem returns_permits {userId action resource : String} {b : Bool} :
  Returns (permits userId action resource) env s b s'
    ↔ s.db.permits userId action resource = b ∧ s = s'
  := by
  unfold permits Db.permits
  split
  · simp
  · simp only [Workspaces.get, returns_bind, returns_select]
    cases hw : s.db.live resource with
    | none => simp
    | some workspace =>
        simp only [Members.get]
        cases hm : s.db.member resource userId with
        | none => simp [hm]
        | some member =>
            cases hg : workspace.grants userId action with
            | none => simp [hm, hg, Roles.permissions, and_comm]
            | some granted => simp [hm, hg]

/-- Reading whether an action is permitted never fails. -/
@[simp]
theorem not_raises_permits {userId action resource : String} {e : Failure} :
  ¬ Raises (permits userId action resource) env s e s'
  := (returns_permits.mpr ⟨rfl, rfl⟩).not_raises

/-- A required action is one the account may perform. -/
@[simp]
theorem returns_require {userId action resource : String} {u : Unit} :
  Returns (require userId action resource) env s u s'
    ↔ s.db.Allows userId action resource ∧ s = s'
  := by
  unfold require Db.Allows Users.get
  simp only [returns_bind, returns_select, returns_check, existing_eq_ok,
    User.ensureOnboarded_eq_ok, returns_permits, returns_refuseUnless]
  constructor
  · rintro ⟨_, _, ⟨rfl, rfl⟩, user, _, ⟨hu, rfl⟩, _, _, ⟨ho, rfl⟩, _, _, ⟨rfl, rfl⟩, hp, rfl⟩
    exact ⟨⟨⟨user, hu, ho⟩, hp⟩, rfl⟩
  · rintro ⟨⟨⟨user, hu, ho⟩, hp⟩, rfl⟩
    exact ⟨_, _, ⟨rfl, rfl⟩, user, _, ⟨hu, rfl⟩, (), _, ⟨ho, rfl⟩, _, _, ⟨rfl, rfl⟩, hp, rfl⟩

/-- A refused action leaves the session as it was, and is not refused as a conflict. -/
theorem raises_require {userId action resource : String} {e : Failure}
    (h : Raises (require userId action resource) env s e s') :
  s' = s ∧ ∃ error, e = .domain error ∧ ∀ message, error ≠ .conflict message
  := by
  unfold require Users.get at h
  simp only [raises_bind, not_raises_select, returns_select, raises_check, returns_check,
    existing_eq_error, User.ensureOnboarded_eq_error, not_raises_permits, returns_permits,
    raises_refuseUnless, false_or] at h
  obtain ⟨_, _, ⟨rfl, rfl⟩, ⟨_, ⟨_, rfl⟩, rfl, rfl⟩ | ⟨user, _, ⟨_, rfl⟩, ⟨_, ⟨_, rfl⟩, rfl, rfl⟩ |
    ⟨_, _, ⟨_, rfl⟩, _, _, ⟨_, rfl⟩, _, rfl, rfl⟩⟩⟩ := h
  · exact ⟨rfl, _, rfl, by simp⟩
  · exact ⟨rfl, _, rfl, by simp⟩
  · exact ⟨rfl, _, rfl, by simp⟩

end MvpApi
