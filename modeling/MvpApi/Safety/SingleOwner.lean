import MvpApi.Safety.Ownership

/-!
# One owner, however requests overlap

Every live workspace has exactly one protected role, and exactly one member who holds it,
its owner, in every state that overlapping requests can commit. The checks of that in the
use cases therefore never fail.
-/

set_option autoImplicit false

namespace MvpApi

open Exec Tx Optimistic

/-- A live workspace has one protected role, which is the only one named `owner`, and one
member who holds it, who is its owner. -/
def Db.SingleOwner (db : Db) : Prop :=
  ∀ workspace ∈ db.workspaces, workspace.deletedAt = none →
    ∃ role ∈ db.roles, role.workspaceId = workspace.id ∧ role.isProtected = true
      ∧ role.name = ownerRole
      ∧ (∀ other ∈ db.roles, other.workspaceId = workspace.id →
          other.isProtected = true ∨ other.name = ownerRole → other = role)
      ∧ ∃ member ∈ db.members, member.workspaceId = workspace.id ∧ member.roleId = role.id
        ∧ member.userId = workspace.ownerId
        ∧ ∀ other ∈ db.members, other.workspaceId = workspace.id → other.roleId = role.id →
            other = member

/-- The owner of a workspace is its single owner. -/
theorem Owned.singleOwner {db : Db} (owned : Owned db) (unique : db.Unique) :
  db.SingleOwner
  := by
  intro workspace hworkspace hlive
  have howner : ownerOf db.workspaces workspace.id = some workspace.ownerId :=
    ownerOf_eq_some.mpr ⟨workspace, hworkspace, rfl, hlive, rfl⟩
  have here := owned workspace.id
  obtain ⟨member, hmember, hmw, hmu, role, hrole, hid, hp⟩ := here.holds _ howner
  have hrw : role.workspaceId = workspace.id := by
    obtain ⟨_, role', hrole', hid', hrw⟩ := here.belongs member hmember hmw
    obtain rfl : role = role' := Table.eq_of_key hrole hrole' (hid.trans hid'.symm)
    exact hrw
  have hname := (here.protected_iff role hrole hrw).mp hp
  refine ⟨role, hrole, hrw, hp, hname, ?_, member, hmember, hmw, hid.symm, hmu, ?_⟩
  · intro other hother how h
    have hname' : other.name = ownerRole := by
      rcases h with h | h
      · exact (here.protected_iff other hother how).mp h
      · exact h
    exact Table.eq_of_key hother hrole
      (unique.roleName other hother role hrole ⟨how.trans hrw.symm, hname'.trans hname.symm⟩)
  · intro other hother how hor
    have hou := here.only other hother how role hrole hor.symm hp
    rw [howner] at hou
    apply Table.eq_of_key hother hmember
    rw [Member.key, Member.key, how, hmw, hmu, Option.some.inj hou]

/-! ### The owners that the checks find -/

/-- A list without repetitions, all whose elements are `a`, among them `a`, is `[a]`. -/
theorem eq_singleton_of_nodup {α : Type} {l : List α} {a : α} (nodup : l.Nodup) (mem : a ∈ l)
    (all : ∀ b ∈ l, b = a) :
  l = [a]
  := by
  cases l with
  | nil => cases mem
  | cons b l =>
      obtain rfl := all b List.mem_cons_self
      cases l with
      | nil => rfl
      | cons c l =>
          obtain rfl := all c (List.mem_cons_of_mem _ List.mem_cons_self)
          simp at nodup

/-- The holders of a protected role of a workspace are its owner. -/
theorem OwnedIn.ownerIds {db : Db} {w userId : String} (h : OwnedIn db w)
    (howner : ownerOf db.workspaces w = some userId) :
  db.ownerIds w = [userId]
  := by
  obtain ⟨member, hmember, hmw, hmu, role, hrole, hid, hp⟩ := h.holds userId howner
  have hsingle : (db.members.rows.filter fun member => member.workspaceId = w
      && (db.roles.get member.roleId).any (·.isProtected)) = [member] := by
    apply eq_singleton_of_nodup (db.members.nodup_rows.filter _)
    · rw [List.mem_filter, Table.mem_rows, ← hid, Table.mem_def.mp hrole]
      exact ⟨hmember, by simp [hmw, hp]⟩
    · intro other hother
      rw [List.mem_filter, Table.mem_rows, Bool.and_eq_true, decide_eq_true_eq] at hother
      obtain ⟨hmem, how, hany⟩ := hother
      cases hr : db.roles.get other.roleId with
      | none =>
          rw [hr] at hany
          cases hany
      | some role' =>
          rw [hr, Option.any_some] at hany
          obtain ⟨hrole', hid'⟩ := Table.get_eq_some_iff.mp hr
          have hou := h.only other hmem how role' hrole' hid' hany
          rw [howner] at hou
          apply Table.eq_of_key hmem hmember
          rw [Member.key, Member.key, how, hmw, hmu, Option.some.inj hou]
  rw [Db.ownerIds, hsingle, List.map_singleton, hmu]
  rfl

/-! ### The checks -/

section Checks

variable {env : Env} {s s' : Session} {message : String}

@[simp]
theorem not_raises_conflict_require {userId action resource : String} :
  ¬ Raises (require userId action resource) env s (.domain (.conflict message)) s'
  := by
  intro h
  obtain ⟨_, error, heq, hne⟩ := raises_require h
  exact hne message (Failure.domain.inj heq).symm

@[simp]
theorem not_raises_conflict_locked {workspaceId : String} :
  ¬ Raises (WorkspaceTx.locked workspaceId) env s (.domain (.conflict message)) s'
  := by
  unfold WorkspaceTx.locked Workspaces.lock Workspaces.get
  simp [raises_check]

@[simp]
theorem not_raises_conflict_configurableRole {workspaceId roleId : String} :
  ¬ Raises (configurableRole workspaceId roleId) env s (.domain (.conflict message)) s'
  := by
  unfold configurableRole Roles.get
  simp [raises_check]

@[simp]
theorem not_raises_conflict_workspaceView {workspace : Workspace} {userId : String} :
  ¬ Raises (workspaceView workspace userId) env s (.domain (.conflict message)) s'
  := by
  intro h
  obtain ⟨hnone, _⟩ := raises_workspaceView h
  unfold workspaceView Members.get at h
  simp only [raises_bind, not_raises_select, returns_select, hnone, raises_check, returns_check,
    workspaceView.member?_eq_ok, false_or] at h
  obtain ⟨_, _, ⟨rfl, rfl⟩, ⟨_, herror, heq, _⟩ | ⟨_, _, ⟨h, _⟩, _⟩⟩ := h
  · rw [← Failure.domain.inj heq] at herror
    cases herror
  · cases h

@[simp]
theorem not_raises_conflict_add {role : Role} {permissions : List String} :
  ¬ Raises (Roles.add role permissions) env s (.domain (.conflict message)) s'
  := by
  unfold Roles.add Roles.grant
  simp

@[simp]
theorem not_raises_conflict_addWorkspace {workspace : Workspace} :
  ¬ Raises (Workspaces.add workspace) env s (.domain (.conflict message)) s'
  := by
  unfold Workspaces.add
  simp

@[simp]
theorem not_raises_conflict_addSystemRoles {workspaceId userId : String}
    {roles : List (String × List String)} :
  ¬ Raises (WorkspaceTx.addSystemRoles workspaceId userId roles) env s
    (.domain (.conflict message)) s'
  := by
  induction roles generalizing s with
  | nil => simp [WorkspaceTx.addSystemRoles]
  | cons entry roles ih =>
      obtain ⟨roleName, permissions⟩ := entry
      unfold WorkspaceTx.addSystemRoles Members.add
      by_cases h : roleName = ownerRole
      · simp [h, ih]
      · simp [h, ih]

@[simp]
theorem not_raises_conflict_admin {workspaceId : String} :
  ¬ Raises (WorkspaceTx.admin workspaceId) env s (.domain (.conflict message)) s'
  := by
  unfold WorkspaceTx.admin Roles.byName
  simp only [raises_bind, not_raises_select, returns_select, false_or]
  rintro ⟨found, _, ⟨_, rfl⟩, h⟩
  cases found with
  | none => simp at h
  | some role => simp at h

@[simp]
theorem not_raises_returnToWorkspaceStep {userIds : List String} {e : Failure} :
  ¬ Raises (WorkspaceTx.returnToWorkspaceStep userIds) env s e s'
  := by
  have h : Returns (WorkspaceTx.returnToWorkspaceStep userIds) env s ()
      (s.write (·.returned userIds)) := WorkspaceTx.returns_returnToWorkspaceStep.mpr rfl
  exact h.not_raises

/-- The check when a member is given another role never fails. -/
theorem setMemberRole_check (owned : Owned s.db) {workspaceId memberId roleId userId : String} :
  ¬ Raises (WorkspaceTx.setMemberRole workspaceId memberId roleId userId) env s
    (.domain (.conflict Workspace.singleOwnerMessage)) s'
  := by
  unfold WorkspaceTx.setMemberRole Members.get Members.save Members.ownerIds
  simp only [raises_bind, not_raises_conflict_locked, WorkspaceTx.returns_locked,
    not_raises_conflict_require, returns_require, not_raises_conflict_configurableRole,
    returns_configurableRole, raises_check, returns_check, Workspace.ensureNotTheOwner_eq_error,
    Workspace.ensureNotTheOwner_eq_ok, not_raises_select, returns_select, found_eq_error,
    found_eq_ok, not_raises_write, returns_write, raises_flush, returns_flush,
    Workspace.ensureSingleOwner_eq_error, false_or]
  rintro ⟨workspace, _, ⟨hlive, rfl⟩, _, _, ⟨_, rfl⟩, role, _, ⟨hrole, hown, hp, rfl⟩, h⟩
  obtain ⟨_, ⟨_, rfl⟩, h, _⟩ | ⟨_, _, ⟨hnot, rfl⟩, _, _, ⟨rfl, rfl⟩, h⟩ := h
  · cases h
  obtain ⟨_, ⟨_, rfl⟩, h, _⟩ | ⟨member, _, ⟨hmember, rfl⟩, _, _, rfl, h⟩ := h
  · cases h
  obtain ⟨_, h, _⟩ | ⟨_, _, ⟨_, rfl⟩, _, _, ⟨rfl, rfl⟩, _, ⟨hne, _⟩, _⟩ := h
  · cases h
  obtain rfl : role.id = roleId := (Table.get_eq_some_iff.mp hrole).2
  have hacts := ActsOn.set_member_role owned hlive hrole hown hp hnot hmember
  exact hne ((hacts.owned owned workspaceId).ownerIds (ownerOf_of_live hlive))

/-- The check when a member is removed never fails. -/
theorem removeMember_check (owned : Owned s.db) {workspaceId memberId userId : String} :
  ¬ Raises (WorkspaceTx.removeMember workspaceId memberId userId) env s
    (.domain (.conflict Workspace.singleOwnerMessage)) s'
  := by
  unfold WorkspaceTx.removeMember Members.get Members.delete Members.ownerIds
  simp only [raises_bind, not_raises_conflict_locked, WorkspaceTx.returns_locked,
    not_raises_conflict_require, returns_require, raises_check, returns_check,
    Workspace.ensureNotTheOwner_eq_error, Workspace.ensureNotTheOwner_eq_ok, not_raises_select,
    returns_select, found_eq_error, found_eq_ok, not_raises_write, returns_write, raises_flush,
    returns_flush, Workspace.ensureSingleOwner_eq_error, not_raises_returnToWorkspaceStep,
    false_or, and_false, exists_false, or_false]
  rintro ⟨workspace, _, ⟨hlive, rfl⟩, _, _, ⟨_, rfl⟩, h⟩
  obtain ⟨_, ⟨_, rfl⟩, h, _⟩ | ⟨_, _, ⟨hnot, rfl⟩, _, _, ⟨rfl, rfl⟩, h⟩ := h
  · cases h
  obtain ⟨_, ⟨_, rfl⟩, h, _⟩ | ⟨member, _, ⟨hmember, rfl⟩, _, _, rfl, h⟩ := h
  · cases h
  obtain ⟨_, h, _⟩ | ⟨_, _, ⟨_, rfl⟩, _, _, ⟨rfl, rfl⟩, _, ⟨hne, _⟩, _⟩ := h
  · cases h
  have hkey : member.key = pair workspaceId memberId := (Table.get_eq_some_iff.mp hmember).2
  have hcovers := Covers.remove_member hlive hnot workspaceId
  rw [← hkey] at hcovers
  exact hne (((owned workspaceId).covers hcovers).ownerIds (ownerOf_of_live hlive))

/-- The check after a transfer never fails. -/
theorem transfer_check (owned : Owned s.db) {workspaceId targetId userId : String} :
  ¬ Raises (WorkspaceTx.transfer workspaceId targetId userId) env s
    (.domain (.conflict Workspace.singleOwnerMessage)) s'
  := by
  unfold WorkspaceTx.transfer Members.get Members.save Workspaces.save Members.ownerIds
  simp only [raises_bind, not_raises_conflict_locked, WorkspaceTx.returns_locked,
    not_raises_conflict_require, returns_require, raises_refuseUnless, returns_refuseUnless,
    raises_check, returns_check, not_raises_select, returns_select, found_eq_error, found_eq_ok,
    not_raises_conflict_admin, not_raises_write, returns_write, raises_flush, returns_flush,
    Workspace.ensureSingleOwner_eq_error, false_or]
  rintro ⟨workspace, _, ⟨hlive, rfl⟩, _, _, ⟨hallowed, rfl⟩, h⟩
  obtain ⟨_, h, _⟩ | ⟨_, _, ⟨hdistinct, rfl⟩, _, _, ⟨rfl, rfl⟩, _, _, ⟨rfl, rfl⟩, h⟩ := h
  · cases h
  obtain ⟨_, ⟨_, rfl⟩, h, _⟩ | ⟨target, _, ⟨htarget, rfl⟩, h⟩ := h
  · cases h
  obtain ⟨_, ⟨_, rfl⟩, h, _⟩ | ⟨previous, _, ⟨hprevious, rfl⟩, admin, s₁, hadmin, h⟩ := h
  · cases h
  obtain ⟨_, _, rfl, _, _, rfl, _, _, rfl, ⟨_, h, _⟩ | ⟨_, _, ⟨_, rfl⟩, _, _, ⟨rfl, rfl⟩, _,
    ⟨hne, _⟩, _⟩⟩ := h
  · cases h
  obtain ⟨roles', permissions', hshape, hmem, hdb, _, _⟩ := WorkspaceTx.returns_admin hadmin
  have hallowed' : s.db.Allows userId "workspace.transfer" workspaceId := hallowed
  obtain ⟨_, hid, hdeleted⟩ := Db.live_eq_some.mp hlive
  have hmem' : (admin ∈ s.db.roles ∧ roles' = s.db.roles)
      ∨ (s.db.roles.get admin.id = none ∧ admin = .system admin.id workspaceId adminRole
        ∧ roles' = s.db.roles.put admin) :=
    hmem.imp (fun h => ⟨h.1, h.2.1⟩) fun h => ⟨h.1, h.2.1, h.2.2.1⟩
  refine hne (OwnedIn.ownerIds (ActsOn.owned (.transfer owned hlive
    (hallowed'.owner (by decide) (by decide) hlive) hdistinct htarget hprevious hshape hmem'
    ?_ ?_ ?_) owned workspaceId) ?_)
  · simp [hdb]
  · simp [hdb]
  · simp [hdb]
  · simp [hdb, ownerOf_put, hid, hdeleted]

/-- The check of a new workspace never fails. -/
theorem create_check (owned : Owned s.db) {name slug userId : String} :
  ¬ Raises (WorkspaceTx.create name slug userId) env s
    (.domain (.conflict Workspace.singleOwnerMessage)) s'
  := by
  unfold WorkspaceTx.create Users.get Users.save Members.ownerIds
  simp only [raises_bind, not_raises_conflict_require, returns_require, not_raises_select,
    returns_select, raises_check, returns_check, existing_eq_error, existing_eq_ok,
    not_raises_newId, returns_newId, not_raises_now, returns_now, Workspace.create_eq_error,
    Workspace.create_eq_ok, not_raises_conflict_addWorkspace, Workspaces.returns_add,
    not_raises_write, returns_write, not_raises_conflict_addSystemRoles, raises_flush,
    returns_flush, Workspace.ensureSingleOwner_eq_error, not_raises_conflict_workspaceView,
    false_or, or_false, and_false, exists_false]
  rintro ⟨_, _, ⟨_, rfl⟩, _, _, ⟨rfl, rfl⟩, h⟩
  obtain ⟨_, ⟨_, rfl⟩, h, _⟩ | ⟨user, _, ⟨huser, rfl⟩, _, _, ⟨rfl, rfl⟩, _, _, ⟨rfl, rfl⟩, h⟩ := h
  · cases h
  obtain ⟨_, ⟨_, rfl⟩, h, _⟩ | ⟨workspace, _, ⟨⟨_, hshape⟩, rfl⟩, _, _, ⟨hfresh, rfl⟩, h⟩ := h
  · cases h
  obtain ⟨_, s₁, hadd, _, _, rfl, ⟨_, h, _⟩ | ⟨_, _, ⟨_, rfl⟩, _, _, ⟨rfl, rfl⟩, _, ⟨hne, _⟩, _⟩⟩ := h
  · cases h
  obtain ⟨new, roles', _, _, hnew, hroles, _, _, howner, hdb, _, _⟩ :=
    WorkspaceTx.returns_addSystemRoles hadd
  obtain ⟨owner, hmem, hname, hfree, joinedAt, rfl⟩ := howner.exists hnew
  have hlive : workspace.deletedAt = none := by rw [hshape]
  have howner : workspace.ownerId = userId := by rw [hshape]
  refine hne (OwnedIn.ownerIds (ActsOn.owned (ActsOn.create joinedAt owned hlive howner hfresh hnew
    hroles hmem hname hfree ?_ ?_ ?_) owned workspace.id) ?_)
  · simp [hdb]
  · simp [hdb]
  · simp [hdb]
  · simp [hdb, ownerOf_put, hlive]

end Checks

/-! ### All runs -/

/-- However transactions overlap, after each commit every live workspace has a single owner,
and no transaction that starts then fails in a check of that. -/
theorem single_owner {env : Env} {commits : List (Commit Db RowId Work)}
    (history : History (system env) .empty commits) :
  (current .empty commits).SingleOwner
    ∧ ∀ s s' : Session, s.db = current .empty commits →
        (∀ name slug userId, ¬ Raises (WorkspaceTx.create name slug userId) env s
          (.domain (.conflict Workspace.singleOwnerMessage)) s')
        ∧ (∀ w memberId roleId userId, ¬ Raises (WorkspaceTx.setMemberRole w memberId roleId userId)
            env s (.domain (.conflict Workspace.singleOwnerMessage)) s')
        ∧ (∀ w memberId userId, ¬ Raises (WorkspaceTx.removeMember w memberId userId) env s
            (.domain (.conflict Workspace.singleOwnerMessage)) s')
        ∧ ∀ w targetId userId, ¬ Raises (WorkspaceTx.transfer w targetId userId) env s
            (.domain (.conflict Workspace.singleOwnerMessage)) s'
  := by
  obtain ⟨owned, unique⟩ := (history_owned history).current
  refine ⟨owned.singleOwner unique, fun s s' hs => ?_⟩
  have owned' : Owned s.db := hs ▸ owned
  exact ⟨fun _ _ _ => create_check owned', fun _ _ _ _ => setMemberRole_check owned',
    fun _ _ _ => removeMember_check owned', fun _ _ _ => transfer_check owned'⟩

/-- A workspace is handed over to a second member, who takes another name at the same time. -/
theorem single_owner_of_transfer :
  ∃ commits, History (system .sample) .empty commits
    ∧ ((current .empty commits).workspaces.any fun workspace =>
        workspace.ownerId = "bob" && workspace.deletedAt = none) = true
    ∧ ((current .empty commits).users.any fun user => user.displayName = "Bobby") = true
    ∧ (current .empty commits).SingleOwner
  := by
  let rename : Work := .rename "bob" "Bobby"
  let transfer : Work := .transfer "i" "bob" "ada"
  let s := Session.after .sample [
    .register "ada" "ada@acme.test" "Ada" none, .register "bob" "bob@acme.test" "Bob" none,
    .create "Acme" "acme" "ada", .issue "i" "bob@acme.test" "iiii" "ada", .accept "t" "bob"]
  let state := Db.merge s.db (transfer.body.run .sample s).2.db (rename.body.run .sample s).2.db
  have reachable : Reachable .sample (fun _ => True) s := .after (by simp)
  obtain ⟨commits, before, same, _⟩ := reachable.history
  have renames := Runs.of_run .sample rename (Reachable.touched reachable) (by decide +kernel)
  have transfers := Runs.of_run .sample transfer (Reachable.touched reachable) (by decide +kernel)
  have history : History (system .sample) .empty
      (⟨transfer, _, state⟩ :: ⟨rename, _, _⟩ :: commits) :=
    .both Db.merge_base before same renames transfers (Db.footprints_disjoint (by decide +kernel))
      (show Db.Unique _ by decide +kernel) (show Db.Unique state by decide +kernel)
  have owner : (state.workspaces.any fun workspace =>
      workspace.ownerId = "bob" && workspace.deletedAt = none) = true := by decide +kernel
  have name : (state.users.any fun user => user.displayName = "Bobby") = true := by decide +kernel
  exact ⟨_, history, owner, name, (single_owner history).1⟩

end MvpApi
