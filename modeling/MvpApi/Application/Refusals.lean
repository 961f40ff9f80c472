import MvpApi.Library.Raising
import MvpApi.Presentation.Errors
import MvpApi.Application.Products
import MvpApi.Application.Accounts

/-!
# The statuses a transaction refuses with

`x.Refuses statuses` says that the `DomainError`s that `x` fails with are answered with statuses
of a list, whatever the rows are. There is one lemma for each transaction and each query.
-/

set_option autoImplicit false

namespace MvpApi

open Exec

/-- A failure that is answered with a status of the list, if it is a `DomainError`. -/
def Failure.Within (statuses : List ℕ) (e : Failure) : Prop :=
  ∀ error, e = .domain error → statusFor error ∈ statuses

theorem Failure.Within.mono {statuses statuses' : List ℕ} {e : Failure} (h : e.Within statuses)
    (more : statuses ⊆ statuses') :
  e.Within statuses'
  := fun error he => more (h error he)

/-- A program of which the `DomainError`s are answered with statuses of the list. -/
abbrev Tx.Refuses {α : Type} (x : Tx α) (statuses : List ℕ) : Prop :=
  x.RaisesOnly (Failure.Within statuses)

end MvpApi

namespace Exec.RaisesOnly

open MvpApi

variable {α : Type} {statuses : List ℕ}

theorem more {x : Tx α} {statuses' : List ℕ} (h : x.Refuses statuses)
    (more : statuses ⊆ statuses') :
  x.Refuses statuses'
  := h.mono fun _ he => he.mono more

theorem check {x : Except DomainError α}
    (h : ∀ error, x = .error error → statusFor error ∈ statuses) :
  (Tx.check x).Refuses statuses
  := by
  cases x with
  | ok a => exact .pure a
  | error error =>
      refine .raise fun error' he => ?_
      obtain rfl := Failure.domain.inj he
      exact h error rfl

theorem refuseUnless {p : Prop} [Decidable p] {error : DomainError}
    (h : statusFor error ∈ statuses) :
  (Tx.refuseUnless p error).Refuses statuses
  := by
  refine .ensure fun error' he => ?_
  obtain rfl := Failure.domain.inj he
  exact h

theorem flush :
  Tx.flush.Refuses statuses
  := .bind (.query _) fun _ => .ensure nofun

/-- A program whose `DomainError`s are swallowed has none. -/
theorem swallowDomainErrors {x : Tx Unit} :
  (Tx.swallowDomainErrors x).Refuses statuses
  := by
  refine .handle (fun env s e s' _ none error he => ?_) ?_
  · subst he
    cases none
  · intro e y hy
    split at hy
    · cases hy
      exact .pure _
    · cases hy

theorem found {value : Option α} {message : String} (h : 404 ∈ statuses) :
  (Tx.check (MvpApi.found value message)).Refuses statuses
  := by
  refine check fun error herror => ?_
  obtain ⟨_, rfl⟩ := found_eq_error.mp herror
  exact h

theorem existing {user : Option User} (h : 401 ∈ statuses) :
  (Tx.check (MvpApi.existing user)).Refuses statuses
  := by
  refine check fun error herror => ?_
  obtain ⟨_, rfl⟩ := existing_eq_error.mp herror
  exact h

end Exec.RaisesOnly

namespace MvpApi

open Exec

open Tx

/-! ### Access checks -/

theorem refuses_permits (userId action resource : String) :
  (permits userId action resource).Refuses []
  := fun _ _ _ _ raised => absurd raised not_raises_permits

theorem refuses_require (userId action resource : String) :
  (require userId action resource).Refuses [401, 403]
  := by
  refine .bind (.query _) fun user => .bind (.existing (by decide)) fun user => ?_
  refine .bind (.check fun error herror => ?_) fun _ => ?_
  · obtain ⟨_, rfl⟩ := User.ensureOnboarded_eq_error.mp herror
    simp [statusFor_eq]
  · exact .bind ((refuses_permits _ _ _).more (List.nil_subset _)) fun permitted =>
      .refuseUnless (by decide)

/-- What everybody may do on their own account is refused to nobody who has one. -/
theorem refuses_require_own (userId : String) {action : String}
    (own : isOnOwnAccount action = true) (anyone : onboardingNeededFor action = anyStatus) :
  (require userId action userId).Refuses [401]
  := by
  refine .bind (.query _) fun user => .bind (.existing (by decide)) fun user => ?_
  refine .bind (.check fun error herror => ?_) fun _ => ?_
  · obtain ⟨due, _⟩ := User.ensureOnboarded_eq_error.mp herror
    rw [anyone] at due
    cases hstatus : user.onboardingStatus with
    | _ => simp [hstatus, anyStatus] at due
  · rw [permits, if_pos own]
    intro env s e s' raised
    simp at raised

theorem refuses_workspace (userId slug : String) (action : Option String) :
  (AccessService.workspace userId slug action).Refuses [401, 403, 404]
  := by
  refine .bind (.query _) fun user => .bind (.existing (by decide)) fun user => ?_
  refine .bind (.check fun error herror => ?_) fun _ => ?_
  · obtain ⟨_, rfl⟩ := User.ensureOnboarded_eq_error.mp herror
    simp [statusFor_eq]
  · refine .bind (.query _) fun workspace => .bind (.found (by decide)) fun workspace => ?_
    refine .bind (.query _) fun member => .bind (.refuseUnless (by decide)) fun _ => ?_
    cases action with
    | none =>
        exact .bind (.pure true) fun _ => .bind (.refuseUnless (by decide)) fun _ => .pure _
    | some action =>
        refine .bind ((refuses_permits _ _ _).more (List.nil_subset _)) fun permitted => ?_
        exact .bind (.refuseUnless (by decide)) fun _ => .pure _

/-! ### Workspaces -/

theorem refuses_workspaceView (workspace : Workspace) (userId : String) :
  (workspaceView workspace userId).Refuses [403]
  := by
  refine .bind (.query _) fun member => .bind (.check fun error herror => ?_) fun member => ?_
  · cases member with
    | none =>
        cases herror
        decide
    | some member => cases herror
  · dsimp only
    split
    · exact .bind (.pure _) fun _ => .pure _
    · exact .bind (.query _) fun _ => .pure _

theorem refuses_configurableRole (workspaceId roleId : String) :
  (configurableRole workspaceId roleId).Refuses [403, 404]
  := by
  refine .bind (.query _) fun role => .bind (.found (by decide)) fun role => ?_
  refine .bind (.check fun error herror => ?_) fun _ => .pure _
  obtain ⟨_, rfl⟩ := Role.ensureConfigurable_eq_error.mp herror
  decide

theorem refuses_usableInvitation (token : String) :
  (usableInvitation token).Refuses [410]
  := by
  refine .bind (.bind (.draw _) fun _ => .query _) fun invitation => ?_
  refine .bind (.check fun error herror => ?_) fun invitation => ?_
  · cases invitation with
    | none =>
        cases herror
        simp [statusFor_eq]
    | some invitation => cases herror
  · refine .bind (.draw _) fun now => .bind (.check fun error herror => ?_) fun _ => .pure _
    unfold Invitation.ensureUsable at herror
    split at herror
    · cases herror
      simp [statusFor_eq]
    · cases herror

theorem refuses_joinWithInvitation (token userId : String) :
  (joinWithInvitation token userId).Refuses [401, 403, 404, 409, 410]
  := by
  refine .bind ((refuses_require _ _ _).more (by decide)) fun _ => ?_
  refine .bind ((refuses_usableInvitation _).more (by decide)) fun invitation => ?_
  refine .bind (.draw _) fun env => .bind (.query _) fun user => ?_
  refine .bind (.existing (by decide)) fun user => .bind (.check fun error herror => ?_) fun _ => ?_
  · unfold Invitation.ensureAddressedTo at herror
    split at herror
    · cases herror
      simp [statusFor_eq]
    · cases herror
  refine .bind (.bind (.query _) fun _ => .bind (.update _) fun _ => .pure _) fun workspace => ?_
  refine .bind (.found (by decide)) fun workspace => ?_
  refine .bind ((refuses_configurableRole _ _).more (by decide)) fun _ => ?_
  refine .bind (.query _) fun member => .bind (.refuseUnless (by decide)) fun _ => ?_
  refine .bind (.draw _) fun now => .bind (.check fun error herror => ?_) fun accepted => ?_
  · unfold Invitation.accept Invitation.ensureUsable Invitation.ensureAddressedTo at herror
    simp only [Except.bind_eq_error, Except.pure_ne_error, and_false, exists_false,
      or_false] at herror
    obtain herror | ⟨_, _, herror⟩ := herror
    · split at herror
      · cases herror
        simp [statusFor_eq]
      · cases herror
    · split at herror
      · cases herror
        simp [statusFor_eq]
      · cases herror
  · refine .bind (.update _) fun _ => .bind (.draw _) fun now => ?_
    refine .bind (.bind (.query _) fun _ => .bind (.ensure fun _ he => by cases he)
      fun _ => .update _) fun _ => ?_
    exact .bind (.update _) fun _ => .bind .flush fun _ =>
      (refuses_workspaceView _ _).more (by decide)

namespace WorkspaceTx

theorem refuses_locked (workspaceId : String) :
  (locked workspaceId).Refuses [404]
  := .bind (.bind (.query _) fun _ => .bind (.update _) fun _ => .pure _) fun _ =>
    .found (by decide)

theorem refuses_grant (roleId : String) (permissions : List String) :
  (Roles.grant roleId permissions).Refuses []
  := .bind (.query _) fun _ => .bind (.ensure nofun) fun _ => .update _

theorem refuses_addRole (role : Role) (permissions : List String) :
  (Roles.add role permissions).Refuses []
  := .bind (.query _) fun _ => .bind (.ensure nofun) fun _ => .bind (.update _) fun _ =>
    refuses_grant _ _

theorem refuses_addMember (member : Member) :
  (Members.add member).Refuses []
  := .bind (.query _) fun _ => .bind (.ensure nofun) fun _ => .update _

theorem refuses_addSystemRoles (workspaceId userId : String)
    (roles : List (String × List String)) :
  (addSystemRoles workspaceId userId roles).Refuses []
  := by
  induction roles with
  | nil => exact .pure _
  | cons entry roles ih =>
      refine .bind (.draw _) fun id => .bind (refuses_addRole _ _) fun _ => ?_
      dsimp only
      split
      · exact .bind (.draw _) fun now => .bind (refuses_addMember _) fun _ => ih
      · exact ih

/-- The owner who is found is not the only one. -/
theorem refuses_ensureSingleOwner (workspace : Workspace) (ownerIds : List String) :
  (check (workspace.ensureSingleOwner ownerIds)).Refuses [409]
  := by
  refine .check fun error herror => ?_
  obtain ⟨_, rfl⟩ := Workspace.ensureSingleOwner_eq_error.mp herror
  decide

theorem refuses_ensureNotTheOwner (workspace : Workspace) (userId message : String) :
  (check (workspace.ensureNotTheOwner userId message)).Refuses [403]
  := by
  refine .check fun error herror => ?_
  obtain ⟨_, rfl⟩ := Workspace.ensureNotTheOwner_eq_error.mp herror
  simp [statusFor_eq]

theorem refuses_create (name slug userId : String) :
  (create name slug userId).Refuses [401, 403, 409, 422]
  := by
  refine .bind ((refuses_require _ _ _).more (by decide)) fun _ => .bind (.query _) fun user => ?_
  refine .bind (.existing (by decide)) fun user => .bind (.draw _) fun id => ?_
  refine .bind (.draw _) fun now => .bind (.check fun error herror => ?_) fun workspace => ?_
  · obtain ⟨_, rfl⟩ := Workspace.create_eq_error.mp herror
    decide
  · refine .bind (.bind (.query _) fun _ => .bind (.ensure nofun) fun _ => .update _) fun _ => ?_
    refine .bind ((refuses_addSystemRoles _ _ _).more (by decide)) fun _ => ?_
    refine .bind (.update _) fun _ => .bind .flush fun _ => .bind (.query _) fun ownerIds => ?_
    exact .bind ((refuses_ensureSingleOwner _ _).more (by decide)) fun _ =>
      (refuses_workspaceView _ _).more (by decide)

theorem refuses_update (workspaceId name slug userId : String) :
  (update workspaceId name slug userId).Refuses [401, 403, 404]
  := by
  refine .bind ((refuses_locked _).more (by decide)) fun workspace => ?_
  refine .bind ((refuses_require _ _ _).more (by decide)) fun _ => ?_
  exact .bind (.update _) fun _ => .bind .flush fun _ =>
    (refuses_workspaceView _ _).more (by decide)

theorem refuses_replaceLogo (workspaceId : String) (key url : Option String) (userId : String) :
  (replaceLogo workspaceId key url userId).Refuses [401, 403, 404]
  := by
  refine .bind ((refuses_locked _).more (by decide)) fun workspace => ?_
  refine .bind ((refuses_require _ _ _).more (by decide)) fun _ => .bind (.update _) fun _ => ?_
  exact .bind ((refuses_workspaceView _ _).more (by decide)) fun _ => .pure _

theorem refuses_returnToWorkspaceStep (userIds : List String) :
  (returnToWorkspaceStep userIds).Refuses []
  := by
  induction userIds with
  | nil => exact .pure _
  | cons userId userIds ih =>
      refine .bind (.query _) fun user => .bind (.query _) fun belongs => ?_
      dsimp only
      split
      · exact .bind (.update _) fun _ => ih
      · exact ih

theorem refuses_delete (workspaceId userId : String) :
  (delete workspaceId userId).Refuses [401, 403, 404]
  := by
  refine .bind ((refuses_locked _).more (by decide)) fun workspace => ?_
  refine .bind ((refuses_require _ _ _).more (by decide)) fun _ => .bind (.query _) fun ids => ?_
  refine .bind (.update _) fun _ => .bind (.update _) fun _ => .bind (.draw _) fun now => ?_
  refine .bind (.draw _) fun id => .bind (.update _) fun _ => .bind .flush fun _ => ?_
  exact (refuses_returnToWorkspaceStep _).more (by decide)

theorem refuses_roleView (role : Role) :
  (roleView role).Refuses []
  := .bind (.query _) fun _ => .bind (.query _) fun _ => .pure _

theorem refuses_ensureAssignableRoleName (name : String) :
  (check (ensureAssignableRoleName name)).Refuses [403]
  := by
  refine .check fun error herror => ?_
  unfold ensureAssignableRoleName at herror
  split at herror
  · cases herror
    decide
  · cases herror

/-- A name that cannot be assigned is refused, be it that of a new role or of an old one. -/
theorem refuses_named {α : Type} {name : String} (f : Unit → α) :
  (check (do ensureAssignableRoleName name; return f ())).Refuses [403]
  := by
  refine .check fun error herror => ?_
  obtain herror | ⟨_, _, herror⟩ := Except.bind_eq_error.mp herror
  · unfold ensureAssignableRoleName at herror
    split at herror
    · cases herror
      decide
    · cases herror
  · exact absurd herror Except.pure_ne_error

theorem refuses_custom (id workspaceId name : String) :
  (check (Role.custom id workspaceId name)).Refuses [403]
  := refuses_named fun _ => (⟨id, workspaceId, strip name, false, false⟩ : Role)

theorem refuses_renameRole (role : Role) (name : String) :
  (check (role.rename name)).Refuses [403]
  := by
  unfold Role.rename
  exact refuses_named fun _ => { role with name := strip name }

theorem refuses_saveRole (workspaceId : String) (roleId : Option String) (name userId : String) :
  (saveRole workspaceId roleId name userId).Refuses [401, 403, 404]
  := by
  refine .bind ((refuses_locked _).more (by decide)) fun workspace => ?_
  refine .bind ((refuses_require _ _ _).more (by decide)) fun _ => ?_
  refine .bind ((refuses_ensureAssignableRoleName _).more (by decide)) fun _ => ?_
  have saved (role : Role) : RaisesOnly (do flush; roleView role)
      (Failure.Within [401, 403, 404]) :=
    .bind .flush fun _ => (refuses_roleView role).more (by decide)
  cases roleId with
  | none =>
      refine .bind (.draw _) fun id => ?_
      refine .bind ((refuses_custom _ _ _).more (by decide)) fun role => ?_
      exact .bind ((refuses_addRole _ _).more (by decide)) fun _ => .bind (.pure _) saved
  | some roleId =>
      refine .bind ((refuses_configurableRole _ _).more (by decide)) fun role => ?_
      refine .bind ((refuses_renameRole _ _).more (by decide)) fun role => ?_
      exact .bind (.update _) fun _ => .bind (.pure _) saved

theorem refuses_deleteRole (workspaceId roleId userId : String) :
  (deleteRole workspaceId roleId userId).Refuses [401, 403, 404, 409]
  := by
  refine .bind ((refuses_locked _).more (by decide)) fun workspace => ?_
  refine .bind ((refuses_require _ _ _).more (by decide)) fun _ => ?_
  refine .bind ((refuses_configurableRole _ _).more (by decide)) fun role => ?_
  refine .bind (.bind (.draw _) fun _ => .query _) fun inUse => ?_
  refine .bind (.refuseUnless (by decide)) fun _ => .bind (.update _) fun _ => ?_
  exact .update _

theorem refuses_setPermissions (workspaceId roleId : String) (permissions : List String)
    (userId : String) :
  (setPermissions workspaceId roleId permissions userId).Refuses [401, 403, 404, 422]
  := by
  refine .bind ((refuses_locked _).more (by decide)) fun workspace => ?_
  refine .bind ((refuses_require _ _ _).more (by decide)) fun _ => ?_
  refine .bind ((refuses_configurableRole _ _).more (by decide)) fun role => ?_
  refine .bind (.check fun error herror => ?_) fun set => ?_
  · unfold validatePermissions at herror
    split at herror
    · cases herror
      decide
    · split at herror
      · cases herror
      · cases herror
        decide
  · refine .bind (.query _) fun before => .bind (.update _) fun _ => .bind (.update _) fun _ => ?_
    exact (refuses_grant _ _).more (by decide)

theorem refuses_setMemberRole (workspaceId memberId roleId userId : String) :
  (setMemberRole workspaceId memberId roleId userId).Refuses [401, 403, 404, 409]
  := by
  refine .bind ((refuses_locked _).more (by decide)) fun workspace => ?_
  refine .bind ((refuses_require _ _ _).more (by decide)) fun _ => ?_
  refine .bind ((refuses_configurableRole _ _).more (by decide)) fun role => ?_
  refine .bind ((refuses_ensureNotTheOwner _ _ _).more (by decide)) fun _ => ?_
  refine .bind (.query _) fun member => .bind (.found (by decide)) fun member => ?_
  refine .bind (.update _) fun _ => .bind .flush fun _ => .bind (.query _) fun ownerIds => ?_
  exact (refuses_ensureSingleOwner _ _).more (by decide)

theorem refuses_removeMember (workspaceId memberId userId : String) :
  (removeMember workspaceId memberId userId).Refuses [401, 403, 404, 409]
  := by
  refine .bind ((refuses_locked _).more (by decide)) fun workspace => ?_
  refine .bind ((refuses_require _ _ _).more (by decide)) fun _ => ?_
  refine .bind ((refuses_ensureNotTheOwner _ _ _).more (by decide)) fun _ => ?_
  refine .bind (.query _) fun member => .bind (.found (by decide)) fun member => ?_
  refine .bind (.update _) fun _ => .bind .flush fun _ => .bind (.query _) fun ownerIds => ?_
  exact .bind ((refuses_ensureSingleOwner _ _).more (by decide)) fun _ =>
    (refuses_returnToWorkspaceStep _).more (by decide)

theorem refuses_admin (workspaceId : String) :
  (admin workspaceId).Refuses []
  := by
  refine .bind (.query _) fun admin => ?_
  cases admin with
  | some admin => exact .pure _
  | none =>
      exact .bind (.draw _) fun id => .bind (refuses_addRole _ _) fun _ => .pure _

theorem refuses_transfer (workspaceId targetId userId : String) :
  (transfer workspaceId targetId userId).Refuses [401, 403, 404, 409, 422]
  := by
  refine .bind ((refuses_locked _).more (by decide)) fun workspace => ?_
  refine .bind ((refuses_require _ _ _).more (by decide)) fun _ => ?_
  refine .bind (.refuseUnless (by decide)) fun _ => .bind (.query _) fun target => ?_
  refine .bind (.query _) fun previous => .bind (.found (by decide)) fun target => ?_
  refine .bind (.found (by decide)) fun previous => ?_
  refine .bind ((refuses_admin _).more (by decide)) fun admin => .bind (.update _) fun _ => ?_
  refine .bind (.update _) fun _ => .bind (.update _) fun _ => .bind .flush fun _ => ?_
  exact .bind (.query _) fun ownerIds => (refuses_ensureSingleOwner _ _).more (by decide)

theorem refuses_issue (workspaceId email roleId userId : String) :
  (issue workspaceId email roleId userId).Refuses [401, 403, 404, 409]
  := by
  refine .bind ((refuses_locked _).more (by decide)) fun workspace => ?_
  refine .bind ((refuses_require _ _ _).more (by decide)) fun _ => ?_
  refine .bind ((refuses_configurableRole _ _).more (by decide)) fun role => ?_
  refine .bind ((refuses_permits _ _ _).more (by decide)) fun mayManageRoles => ?_
  refine .bind (.check fun error herror => ?_) fun _ => ?_
  · unfold Role.ensureInvitable at herror
    split at herror
    · cases herror
      decide
    · cases herror
  refine .bind (.bind (.draw _) fun env => .query _) fun hasEmail => ?_
  have rest (known : Bool) : RaisesOnly (do
      refuseUnless (known = false)
        (.conflict "This email is already a member or has a pending invitation")
      let env ← platform
      let token ← newToken
      let created ← now
      let invitation :=
        Invitation.issue env (← newId) token workspaceId email roleId userId created
      Invitations.add invitation
      return (workspace, invitation, token)) (Failure.Within [401, 403, 404, 409]) := by
    refine .bind (.refuseUnless (by decide)) fun _ => .bind (.draw _) fun env => ?_
    refine .bind (.draw _) fun token => .bind (.draw _) fun created => .bind (.draw _) fun id => ?_
    refine .bind (.bind (.query _) fun _ => .bind (.ensure nofun) fun _ => .update _) fun _ => ?_
    exact .pure _
  dsimp only
  split
  · exact .bind (.pure true) rest
  · exact .bind (.bind (.draw _) fun env => .bind (.draw _) fun now => .query _) rest

theorem refuses_revoke (workspaceId invitationId userId : String) :
  (revoke workspaceId invitationId userId).Refuses [401, 403, 404, 409]
  := by
  refine .bind ((refuses_locked _).more (by decide)) fun workspace => ?_
  refine .bind ((refuses_require _ _ _).more (by decide)) fun _ => .bind (.query _) fun found => ?_
  refine .bind (.found (by decide)) fun invitation => .bind (.draw _) fun now => ?_
  refine .bind (.check fun error herror => ?_) fun revoked => .update _
  unfold Invitation.revoke at herror
  split at herror
  · cases herror
    decide
  · cases herror

/-! ### Reads -/

theorem refuses_listMine (userId : String) :
  (listMine userId).Refuses [401, 403]
  := by
  refine .bind (refuses_require _ _ _) fun _ =>
    .bind (.bind (.draw _) fun _ => .query _) fun workspaces => ?_
  induction workspaces with
  | nil => exact .pure _
  | cons workspace workspaces ih =>
      exact .bind ((refuses_workspaceView _ _).more (by decide)) fun view =>
        .bind ih fun _ => .pure _

theorem refuses_slugAvailable (slug userId : String) :
  (slugAvailable slug userId).Refuses [401, 403, 422]
  := by
  refine .bind ((refuses_require _ _ _).more (by decide)) fun _ => ?_
  exact .bind (.refuseUnless (by decide)) fun _ => .bind (.query _) fun _ => .pure _

theorem refuses_get (workspaceId userId : String) :
  (get workspaceId userId).Refuses [401, 403, 404]
  := by
  refine .bind ((refuses_require _ _ _).more (by decide)) fun _ => .bind (.query _) fun found => ?_
  exact .bind (.found (by decide)) fun workspace =>
    (refuses_workspaceView _ _).more (by decide)

theorem refuses_roles (workspaceId userId : String) :
  (roles workspaceId userId).Refuses [401, 403]
  := by
  refine .bind (refuses_require _ _ _) fun _ =>
    .bind (.bind (.draw _) fun _ => .query _) fun roles => ?_
  induction roles with
  | nil => exact .pure _
  | cons role roles ih =>
      exact .bind ((refuses_roleView _).more (by decide)) fun view => .bind ih fun _ => .pure _

theorem refuses_permissionCatalog (workspaceId userId : String) :
  (permissionCatalog workspaceId userId).Refuses [401, 403]
  := .bind (refuses_require _ _ _) fun _ => .pure _

theorem refuses_members (workspaceId userId : String) :
  (members workspaceId userId).Refuses [401, 403]
  := .bind (refuses_require _ _ _) fun _ =>
    .bind (.bind (.draw _) fun _ => .query _) fun _ => .pure _

theorem refuses_invitations (workspaceId userId : String) :
  (invitations workspaceId userId).Refuses [401, 403]
  := .bind (refuses_require _ _ _) fun _ => .bind (.query _) fun _ => .pure _

end WorkspaceTx

/-! ### Accounts -/

namespace AccountTx

theorem refuses_register (sub email displayName : String) (invitationToken : Option String) :
  (register sub email displayName invitationToken).Refuses []
  := by
  refine .bind (.draw _) fun env => .bind (.draw _) fun now => .bind (.update _) fun _ => ?_
  refine .bind .flush fun _ => ?_
  split
  · exact .pure _
  · exact .swallowDomainErrors

theorem refuses_ensureAccount (sub email : String) :
  (ensureAccount sub email).Refuses []
  := .bind (.draw _) fun _ => .bind (.draw _) fun _ => .update _

theorem refuses_view (user : User) :
  (view user).Refuses []
  := .bind (.query _) fun _ => .pure _

theorem refuses_profile (userId : String) :
  (profile userId).Refuses [401]
  := by
  refine .bind (refuses_require_own userId (by decide) (by decide)) fun _ => ?_
  exact .bind (.query _) fun user => .bind (.existing (by decide)) fun user =>
    (refuses_view _).more (by decide)

theorem refuses_rename (userId displayName : String) :
  (rename userId displayName).Refuses [401]
  := by
  refine .bind (refuses_require_own userId (by decide) (by decide)) fun _ => ?_
  refine .bind (.query _) fun user => .bind (.existing (by decide)) fun user => ?_
  exact .bind (.query _) fun belongs => .bind (.update _) fun _ => .pure _

theorem refuses_replaceAvatar (userId : String) (key url : Option String) :
  (replaceAvatar userId key url).Refuses [401]
  := .bind (.query _) fun user => .bind (.existing (by decide)) fun user =>
    .bind (.update _) fun _ => .pure _

theorem refuses_ensureDeletable (userId : String) :
  (ensureDeletable userId).Refuses [401, 409]
  := by
  refine .bind ((refuses_require_own userId (by decide) (by decide)).more (by decide)) fun _ => ?_
  exact .bind (.query _) fun owns => .refuseUnless (by decide)

theorem refuses_delete (userId : String) :
  (delete userId).Refuses [401, 409]
  := by
  refine .bind (refuses_ensureDeletable userId) fun _ => .bind (.query _) fun user => ?_
  refine .bind (.existing (by decide)) fun user => .bind (.update _) fun _ => ?_
  exact .bind (.update _) fun _ => .bind (.update _) fun _ => .pure _

end AccountTx

namespace PurgeTx

theorem refuses_deleteBatch (workspaceId : String) (limit : ℕ) :
  (deleteBatch workspaceId limit).Refuses []
  := .bind (.draw _) fun _ => .bind (.query _) fun _ => .bind (.query _) fun _ =>
    .bind (.update _) fun _ => .pure _

theorem refuses_purgeRows (workspaceId : String) :
  (purgeRows workspaceId).Refuses []
  := by
  refine .bind (.query _) fun workspace => ?_
  cases workspace with
  | none => exact .pure _
  | some workspace => exact .bind (.update _) fun _ => .pure _

end PurgeTx

/-! ### Products -/

namespace ProductTx

theorem refuses_get (workspaceId productId : String) :
  (get workspaceId productId).Refuses [404]
  := .bind (.bind (.query _) fun _ => .bind (.update _) fun _ => .pure _) fun _ =>
    .found (by decide)

theorem refuses_lockQuota (workspaceId : String) :
  (lockQuota workspaceId).Refuses []
  := .bind (.bind (.query _) fun _ => .bind (.update _) fun _ => .pure _) fun _ => .pure _

theorem refuses_checkInvariants (row : ProductRow) {error : DomainError}
    (h : Product.checkInvariants row = .error error) :
  statusFor error = 422
  := by
  unfold Product.checkInvariants at h
  split at h
  · cases h
    rfl
  · split at h
    · cases h
      rfl
    · cases h

theorem refuses_parseOrder {orderBy : Option String} {error : DomainError}
    (h : parseOrder orderBy = .error error) :
  statusFor error = 422
  := by
  unfold parseOrder at h
  dsimp only at h
  generalize (if startswith _ _ = true then _ else _ : String) = name at h
  split at h
  · cases h
  · cases h
    rfl

theorem refuses_ensureRoomForImageCount {count : ℕ} {error : DomainError}
    (h : ensureRoomForImageCount count = .error error) :
  statusFor error = 409
  := by
  unfold ensureRoomForImageCount at h
  split at h
  · cases h
    rfl
  · cases h

theorem refuses_ensureRoomForBytes {quotas : ProductQuotas} {used incoming : ℕ}
    {error : DomainError} (h : quotas.ensureRoomForBytes used incoming = .error error) :
  statusFor error = 409
  := by
  unfold ProductQuotas.ensureRoomForBytes at h
  split at h
  · cases h
    rfl
  · cases h

theorem refuses_create (quotas : ProductQuotas) (workspaceId name : String) (sku : Option String)
    (price : Price) (status : ProductStatus) (description : Option String) :
  (create quotas workspaceId name sku price status description).Refuses [409, 422]
  := by
  refine .bind ((refuses_lockQuota _).more (by decide)) fun _ => .bind (.query _) fun count => ?_
  refine .bind (.check fun error herror => ?_) fun _ => .bind (.draw _) fun created => ?_
  · unfold ProductQuotas.ensureRoomForProduct at herror
    split at herror
    · cases herror
      simp [statusFor_eq]
    · cases herror
  · refine .bind (.draw _) fun id => .bind (.check fun error herror => ?_) fun product => ?_
    · obtain herror | ⟨_, _, herror⟩ := Except.bind_eq_error.mp herror
      · rw [refuses_checkInvariants _ herror]
        decide
      · cases herror
    · refine .bind (.bind (.query _) fun _ => .bind (.ensure nofun) fun _ => .update _) fun _ => ?_
      exact .pure _

theorem refuses_update (workspaceId productId : String) (changes : ProductChanges)
    (ifMatch : Option Time) :
  (update workspaceId productId changes ifMatch).Refuses [404, 412, 422]
  := by
  refine .bind ((refuses_get _ _).more (by decide)) fun product => ?_
  refine .bind (.check fun error herror => ?_) fun _ => ?_
  · unfold Product.ensureUnchangedSince at herror
    split at herror
    · cases herror
    · split at herror
      · cases herror
        decide
      · cases herror
  · dsimp only
    split
    · exact .bind (.pure _) fun product => .bind (.update _) fun _ => .pure _
    · refine .bind (.check fun error herror => ?_) fun _ => .bind (.draw _) fun now => ?_
      · rw [refuses_checkInvariants _ herror]
        decide
      · exact .bind (.pure _) fun _ => .bind (.update _) fun _ => .pure _

theorem refuses_delete (workspaceId productId : String) :
  (delete workspaceId productId).Refuses [404]
  := .bind (refuses_get _ _) fun _ => .bind (.update _) fun _ => .pure _

theorem refuses_attach (quotas : ProductQuotas) (workspaceId productId : String)
    (stored : StoredImage) (uploadKey : String) :
  (attach quotas workspaceId productId stored uploadKey).Refuses [404, 409]
  := by
  refine .bind ((refuses_lockQuota _).more (by decide)) fun _ => ?_
  refine .bind ((refuses_get _ _).more (by decide)) fun product => ?_
  refine .bind (.check fun error herror => ?_) fun _ => .bind (.query _) fun used => ?_
  · rw [refuses_ensureRoomForImageCount herror]
    decide
  refine .bind (.check fun error herror => ?_) fun _ => .bind (.draw _) fun id => ?_
  · rw [refuses_ensureRoomForBytes herror]
    decide
  refine .bind (.draw _) fun now => .bind (.check fun error herror => ?_) fun added => ?_
  · obtain herror | ⟨_, _, herror⟩ := Except.bind_eq_error.mp herror
    · rw [refuses_ensureRoomForImageCount herror]
      decide
    · cases herror
  · refine .bind (.bind (.query _) fun _ => .bind (.ensure nofun) fun _ => .update _) fun _ => ?_
    exact .pure _

theorem refuses_removeImage (workspaceId productId imageId : String) :
  (removeImage workspaceId productId imageId).Refuses [404]
  := by
  refine .bind (refuses_get _ _) fun product => .bind (.check fun error herror => ?_) fun removed => ?_
  · obtain herror | ⟨_, _, herror⟩ := Except.bind_eq_error.mp herror
    · obtain ⟨_, rfl⟩ := found_eq_error.mp herror
      decide
    · cases herror
  · exact .bind (.update _) fun _ => .pure _

theorem refuses_reorderImages (workspaceId productId : String) (imageIds : List String) :
  (reorderImages workspaceId productId imageIds).Refuses [404, 422]
  := by
  refine .bind ((refuses_get _ _).more (by decide)) fun product => ?_
  refine .bind (.check fun error herror => ?_) fun product =>
    .bind (.update _) fun _ => .pure _
  unfold Product.reorderImages at herror
  split at herror
  · cases herror
    decide
  · cases herror

end ProductTx

end MvpApi
